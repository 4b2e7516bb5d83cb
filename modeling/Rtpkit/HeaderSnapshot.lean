import Rtpkit.RtpExtraction
import Rtpkit.SnapLength
import Rtpkit.StreamDelivery

namespace Rtpkit

open Outcome

section MapPackets

variable {f : RtpPacket → RtpPacket}

/-- A change to packets that leaves what the tracker computes with. -/
structure KeepsHeader (f : RtpPacket → RtpPacket) : Prop where
  payloadType : ∀ p, (f p).payloadType = p.payloadType
  sequenceNumber : ∀ p, (f p).sequenceNumber = p.sequenceNumber
  timestamp : ∀ p, (f p).timestamp = p.timestamp
  ssrc : ∀ p, (f p).ssrc = p.ssrc

def Arrival.mapPacket (f : RtpPacket → RtpPacket) (a : Arrival) : Arrival :=
  { a with packet := f a.packet }

def StreamState.mapPackets (f : RtpPacket → RtpPacket) (s : StreamState) : StreamState :=
  { s with packets := s.packets.mapValues f }

theorem StreamState.step_mapPackets (hf : KeepsHeader f) (s : StreamState) (a : Arrival) :
    (s.mapPackets f).step (a.mapPacket f) = (s.step a).mapPackets f := by
  have hextend : ∀ seq, (s.mapPackets f).extend seq = s.extend seq := fun _ => rfl
  unfold StreamState.step
  rw [StreamState.observe_eq, StreamState.observe_eq]
  simp only [Arrival.mapPacket, hf.payloadType, hf.sequenceNumber, hf.timestamp, hextend]
  unfold StreamState.mapPackets
  dsimp only
  split
  next => rfl
  next => rw [OrderedDict.mapValues_set]

/-- The state after changed packets is the state with the packets changed. -/
theorem streamAfter_mapPacket (hf : KeepsHeader f) (run : List Arrival) :
    streamAfter (run.map (Arrival.mapPacket f)) =
      (streamAfter run).map (StreamState.mapPackets f) := by
  induction run using List.reverseRecOn with
  | nil => rfl
  | append_singleton run a ih =>
    rw [List.map_append, List.map_singleton, streamAfter_concat, streamAfter_concat, ih,
      Option.map_some, ← StreamState.step_mapPackets hf]
    cases streamAfter run with
    | none =>
      rw [Option.map_none, Option.getD_none, Option.getD_none]
      simp only [Arrival.mapPacket, hf.payloadType]
      rfl
    | some s => rfl

theorem stats_mapPacket (hf : KeepsHeader f) (run : List Arrival) (ssrc : Int) :
    (trackerAfter (run.map (Arrival.mapPacket f))).stats ssrc = (trackerAfter run).stats ssrc := by
  unfold RtpStreamTracker.stats
  rw [get?_trackerAfter, get?_trackerAfter, arrivalsOf_map fun a => hf.ssrc a.packet,
    streamAfter_mapPacket hf]
  cases streamAfter (arrivalsOf ssrc run) with
  | none => rfl
  | some s => rfl

end MapPackets

/-- A packet as a capture with a snap length keeps it. -/
def PcapPacket.snapped (k : Nat) (pkt : PcapPacket) : PcapPacket :=
  { pkt with
    capturedLength := (pkt.data.take k).length
    data := pkt.data.take k }

/-- What the first 12 bytes say of a packet. -/
def RtpPacket.fixedHeader (packet : RtpPacket) : RtpPacket :=
  { packet with
    csrc := []
    headerExtension := none
    payload := []
    paddingSize := 0
    raw := [] }

theorem keepsHeader_fixedHeader : KeepsHeader RtpPacket.fixedHeader :=
  ⟨fun _ => rfl, fun _ => rfl, fun _ => rfl, fun _ => rfl⟩

theorem fixedHeader_take {data : Bytes} {k : Nat} (hk : 12 ≤ k) :
    (lenientPacket (data.take k)).fixedHeader = (lenientPacket data).fixedHeader := by
  have hpadding : decide (PaddingFlag (data.take k)) = decide (PaddingFlag data) :=
    decide_eq_decide.mpr (paddingFlag_take hk)
  have hextension : decide (ExtensionFlag (data.take k)) = decide (ExtensionFlag data) :=
    decide_eq_decide.mpr (extensionFlag_take hk)
  have hbyte : ∀ i < 12, byteAt (data.take k) i = byteAt data i :=
    fun i hi => byteAt_take (by omega)
  unfold lenientPacket RtpPacket.fixedHeader
  dsimp only
  rw [hpadding, hextension, hbyte 0 (by decide), hbyte 1 (by decide), halfAt_take (by omega),
    quadAt_take (by omega), quadAt_take (by omega)]

/-- What the tracker is told of a packet that was found. -/
def ExtractedRtp.arrival (clockRate : Int) (found : ExtractedRtp) : Arrival where
  packet := found.rtp
  arrivalTime := found.packet.timestamp
  clockRate := clockRate

/-- The second packet is the first one, cut off anywhere behind the fixed header of its RTP. -/
def SnappedBehindHeader (lib : IpAddressModule) (pkt cut : PcapPacket) : Prop :=
  ∃ k, cut = pkt.snapped k ∧ ∀ udp, datagramIn lib pkt = some udp → udp.payload.start + 12 ≤ k

section Snapped

variable {lib : IpAddressModule} {failure : Option Error} {packets cut : List PcapPacket}

/-- Cuts behind the RTP headers change no header, and no failure. -/
theorem extractFrom_snapped (clockRate : Int)
    (h : List.Forall₂ (SnappedBehindHeader lib) packets cut) :
    (extractFrom lib failure cut).failure = (extractFrom lib failure packets).failure ∧
      ((extractFrom lib failure cut).items.map
          (ExtractedRtp.arrival clockRate)).map (Arrival.mapPacket RtpPacket.fixedHeader) =
        ((extractFrom lib failure packets).items.map
          (ExtractedRtp.arrival clockRate)).map (Arrival.mapPacket RtpPacket.fixedHeader) := by
  induction h with
  | nil => exact ⟨rfl, rfl⟩
  | @cons pkt _ packets cut hsnapped _ ih =>
    obtain ⟨k, rfl, hk⟩ := hsnapped
    obtain ⟨result, hresult⟩ := exists_decapsulateUdp lib pkt.linkType pkt.data
    rw [extractFrom, extractFrom, hresult]
    cases result with
    | none =>
      have hcut : decapsulateUdp lib (pkt.snapped k).linkType (pkt.snapped k).data = .ok none :=
        decapsulateUdp_take_of_none hresult
      rw [hcut]
      exact ih
    | some udp =>
      have hstart : udp.payload.start + 12 ≤ k := hk udp (by rw [datagramIn, hresult])
      obtain ⟨cut, hcut, hshort⟩ := exists_cutShort hresult (show udp.payload.start ≤ k by omega)
      have hcut' : decapsulateUdp lib (pkt.snapped k).linkType (pkt.snapped k).data =
          .ok (some cut) := hcut
      rw [hcut']
      dsimp only
      rw [hshort.payload]
      by_cases hlen : udp.payload.toList.length < 12
      · -- all of a payload that is too short is there
        rw [List.take_of_length_le (by omega), parseRtpLenient_short hlen]
        exact ⟨rfl, rfl⟩
      · have hcutLen : 12 ≤ (udp.payload.toList.take (k - udp.payload.start)).length := by
          rw [List.length_take]
          omega
        rw [parseRtpLenient_eq hcutLen, parseRtpLenient_eq (Nat.le_of_not_lt hlen)]
        obtain ⟨hfailure, hitems⟩ := ih
        refine ⟨hfailure, ?_⟩
        rw [Yielded.items_prepend, Yielded.items_prepend, List.map_append, List.map_append,
          List.map_append, List.map_append, hitems]
        simp only [List.map_singleton, ExtractedRtp.arrival, Arrival.mapPacket,
          fixedHeader_take (show 12 ≤ k - udp.payload.start by omega), PcapPacket.snapped]

end Snapped

/-- A capture that keeps no more than the headers of its RTP packets gives the streams, the
statistics and the order that the whole capture gives; even the failure is the same. -/
theorem snapshot_suffices (lib : IpAddressModule) (clockRate : Int)
    {y : Yielded PcapPacket Error} {snapped : List PcapPacket}
    (h : List.Forall₂ (SnappedBehindHeader lib) y.items snapped) :
    let whole := extractFrom lib y.failure y.items
    let cut := extractFrom lib y.failure snapped
    let tracker := fun found : List ExtractedRtp =>
      trackerAfter (found.map (ExtractedRtp.arrival clockRate))
    cut.failure = whole.failure ∧ (tracker cut.items).ssrcs = (tracker whole.items).ssrcs ∧
      ∀ ssrc, (tracker cut.items).stats ssrc = (tracker whole.items).stats ssrc ∧
        List.map RtpPacket.fixedHeader <$> (tracker cut.items).orderedPackets ssrc =
          List.map RtpPacket.fixedHeader <$> (tracker whole.items).orderedPackets ssrc := by
  obtain ⟨failure, items⟩ := y
  obtain ⟨hfailure, hitems⟩ := extractFrom_snapped clockRate h
  have hkeeps := keepsHeader_fixedHeader
  have hpacket : ∀ a : Arrival,
      (a.mapPacket RtpPacket.fixedHeader).packet = a.packet.fixedHeader := fun _ => rfl
  have hssrc : ∀ a : Arrival, (a.mapPacket RtpPacket.fixedHeader).packet.ssrc = a.packet.ssrc :=
    fun _ => rfl
  refine ⟨hfailure, ?_, fun ssrc => ⟨?_, ?_⟩⟩
  · rw [← ssrcs_map hssrc, hitems, ssrcs_map hssrc]
  · rw [← stats_mapPacket hkeeps, hitems, stats_mapPacket hkeeps]
  · rw [← orderedPackets_map hpacket hkeeps.ssrc hkeeps.sequenceNumber, hitems,
      orderedPackets_map hpacket hkeeps.ssrc hkeeps.sequenceNumber]

/-- An IPv4 packet with an RTP packet of three bytes in it. -/
def smallCall : PcapPacket where
  timestamp := 1
  capturedLength := 43
  originalLength := 43
  linkType := dltRaw
  data := [0x45, 0, 0, 43, 0, 0, 0, 0, 64, 17, 0, 0, 10, 0, 0, 1, 10, 0, 0, 2,
    0x13, 0x8c, 0x13, 0x8e, 0, 23, 0, 0, 0x80, 8, 0, 7, 0, 0, 0, 0, 0, 0, 0, 9, 1, 2, 3]

/-- The same packet twice, cut off at two places. -/
theorem snapshot_suffices_smallCall :
    (trackerAfter ((extractFrom sampleAddresses none
        [smallCall.snapped 40, smallCall.snapped 42]).items.map
          (ExtractedRtp.arrival 8000))).stats 9 =
      (trackerAfter ((extractFrom sampleAddresses none [smallCall, smallCall]).items.map
        (ExtractedRtp.arrival 8000))).stats 9 ∧
    (extractFrom sampleAddresses none [smallCall, smallCall]).items.length = 2 := by
  have hstart : ∀ udp ∈ datagramIn sampleAddresses smallCall, udp.payload.start = 28 := by
    decide +kernel
  have hsnapped : ∀ k, 40 ≤ k → SnappedBehindHeader sampleAddresses smallCall (smallCall.snapped k) :=
    fun k hk => ⟨k, rfl, fun udp hudp => by rw [hstart udp hudp]; exact hk⟩
  have hsuffices := snapshot_suffices sampleAddresses 8000 (y := ⟨[smallCall, smallCall], none⟩)
    (.cons (hsnapped 40 (by decide)) (.cons (hsnapped 42 (by decide)) .nil))
  exact ⟨(hsuffices.2.2 9).1, by decide +kernel⟩

end Rtpkit

import Rtpkit.CaptureRewrite
import Rtpkit.CaptureSafety
import Rtpkit.DecapLayout
import Rtpkit.LenientRefines
import Rtpkit.RtpImage
import Rtpkit.RtpLenient

namespace Rtpkit

open Outcome Chunk

/-- A packet of a capture, the datagram in it, and the RTP packet in that. -/
structure ExtractedRtp where
  packet : PcapPacket
  udp : DecapsulatedUdp
  rtp : RtpPacket

section Extract

variable (lib : IpAddressModule)

/-- The loop over the packets of a reader, which ends as the reader does. -/
def extractFrom (failure : Option Error) : List PcapPacket → Yielded ExtractedRtp Error
  | [] => ⟨[], failure⟩
  | pkt :: packets =>
    match decapsulateUdp lib pkt.linkType pkt.data with
    | .error e => .raised e
    | .ok none => extractFrom failure packets
    | .ok (some udp) =>
      match parseRtpLenient udp.payload.toList with
      | .error e => .raised e
      | .ok rtp => (extractFrom failure packets).prepend [⟨pkt, udp, rtp⟩]

/-- Pull RTP out of a capture file. -/
def extractRtp (data : Bytes) : Yielded ExtractedRtp Error :=
  extractFrom lib (readCapture data).failure (readCapture data).items

/-- The datagram in a packet of a capture. -/
def datagramIn (pkt : PcapPacket) : Option DecapsulatedUdp :=
  match decapsulateUdp lib pkt.linkType pkt.data with
  | .ok found => found
  | .error _ => none

end Extract

/-- From `pos` on, the RTP packets are slices of the data one behind the other. -/
inductive LaidOut (data : Bytes) : Nat → List ExtractedRtp → Prop
  | nil (pos : Nat) : LaidOut data pos []
  | cons {pos start : Nat} {found : ExtractedRtp} {rest : List ExtractedRtp}
      (behind : pos ≤ start)
      (stands : StandsAt data start found.rtp.raw)
      (tail : LaidOut data (start + found.rtp.raw.length) rest) :
      LaidOut data pos (found :: rest)

theorem LaidOut.of_le {data : Bytes} {pos pos' : Nat} {found : List ExtractedRtp}
    (h : LaidOut data pos' found) (hle : pos ≤ pos') : LaidOut data pos found := by
  cases h with
  | nil => exact .nil _
  | cons behind stands tail => exact .cons (hle.trans behind) stands tail

/-- What an RTP packet has to do with the packet of the capture it was found in. -/
structure ExtractedRtp.Sound (lib : IpAddressModule) (found : ExtractedRtp) : Prop where
  datagram : decapsulateUdp lib found.packet.linkType found.packet.data = .ok (some found.udp)
  view : found.udp.payload.buffer = found.packet.data
  raw : found.rtp.raw = found.udp.payload.toList
  accounts : ∃ header padding, found.rtp.Accounts found.rtp.raw header padding
  strict : ∀ rtp, parseRtp found.rtp.raw = .ok rtp → rtp = found.rtp ∧
    ∃ image, (RtpBuilder.ofPacket found.rtp).build = .ok image ∧
      RtpBuilder.AgreesOutsideFiller found.rtp.raw image found.rtp.paddingSize

section Found

variable {lib : IpAddressModule} {pkt : PcapPacket} {udp : DecapsulatedUdp}

theorem buffer_of_decapsulateUdp
    (h : decapsulateUdp lib pkt.linkType pkt.data = .ok (some udp)) :
    udp.payload.buffer = pkt.data := by
  obtain ⟨ethertype, ipStart, start, stop, -, -, -, rfl⟩ := decapsulateUdp_eq_some_iff.mp h
  rfl

theorem standsAt_payload (udp : DecapsulatedUdp) :
    StandsAt udp.payload.buffer udp.payload.start udp.payload.toList :=
  standsAt_slice _ udp.payload.start_le_stop udp.payload.stop_le_length

theorem sound_of_parse {rtp : RtpPacket}
    (hudp : decapsulateUdp lib pkt.linkType pkt.data = .ok (some udp))
    (hrtp : parseRtpLenient udp.payload.toList = .ok rtp) :
    ExtractedRtp.Sound lib ⟨pkt, udp, rtp⟩ := by
  have hlen : 12 ≤ udp.payload.toList.length := by
    by_contra hshort
    rw [parseRtpLenient_short (by omega)] at hrtp
    cases hrtp
  have hpacket := parseRtpLenient_eq hlen
  obtain rfl : lenientPacket udp.payload.toList = rtp :=
    Except.ok.inj (hpacket.symm.trans hrtp)
  refine ⟨hudp, buffer_of_decapsulateUdp hudp, rfl, ?_, fun rtp hstrict => ?_⟩
  · exact ⟨_, _, lenientPacket_accounts hlen⟩
  · have hsame : rtp = lenientPacket udp.payload.toList :=
      Except.ok.inj ((parse_lenient hstrict).symm.trans hrtp)
    subst hsame
    exact ⟨rfl, RtpBuilder.rebuild_of_parse hstrict⟩

theorem parseRtpLenient_eq_error {data : Bytes} {e : Error} (h : parseRtpLenient data = .error e) :
    data.length < 12 ∧ e = .rtpBufferTooShort 12 data.length := by
  by_cases hlen : 12 ≤ data.length
  · rw [parseRtpLenient_eq hlen] at h
    cases h
  · rw [parseRtpLenient_short (by omega)] at h
    exact ⟨by omega, (Except.error.inj h).symm⟩

end Found

section Run

variable {lib : IpAddressModule} {failure : Option Error} {pkt : PcapPacket}
  {packets : List PcapPacket}

/-- One turn of the loop, by what there is in the packet. -/
theorem extractFrom_cons_cases (lib : IpAddressModule) (failure : Option Error) (pkt : PcapPacket)
    (packets : List PcapPacket) :
    (datagramIn lib pkt = none ∧
      extractFrom lib failure (pkt :: packets) = extractFrom lib failure packets) ∨
    ∃ udp, datagramIn lib pkt = some udp ∧
      ((udp.payload.toList.length < 12 ∧ extractFrom lib failure (pkt :: packets) =
          .raised (.rtpBufferTooShort 12 udp.payload.toList.length)) ∨
        ∃ found : ExtractedRtp, found.packet = pkt ∧ found.udp = udp ∧ found.Sound lib ∧
          extractFrom lib failure (pkt :: packets) =
            (extractFrom lib failure packets).prepend [found]) := by
  obtain ⟨result, hresult⟩ := exists_decapsulateUdp lib pkt.linkType pkt.data
  rw [datagramIn, extractFrom, hresult]
  cases result with
  | none => exact .inl ⟨rfl, rfl⟩
  | some udp =>
    refine .inr ⟨udp, rfl, ?_⟩
    dsimp only
    cases hrtp : parseRtpLenient udp.payload.toList with
    | error e =>
      obtain ⟨hlen, rfl⟩ := parseRtpLenient_eq_error hrtp
      exact .inl ⟨hlen, rfl⟩
    | ok rtp => exact .inr ⟨⟨pkt, udp, rtp⟩, rfl, rfl, sound_of_parse hresult hrtp, rfl⟩

theorem sound_of_mem_extractFrom {found : ExtractedRtp}
    (h : found ∈ (extractFrom lib failure packets).items) : found.Sound lib := by
  induction packets with
  | nil => cases h
  | cons pkt packets ih =>
    rcases extractFrom_cons_cases lib failure pkt packets with
      ⟨-, hnext⟩ | ⟨udp, -, ⟨-, hnext⟩ | ⟨first, -, -, hsound, hnext⟩⟩
    · rw [hnext] at h
      exact ih h
    · rw [hnext] at h
      cases h
    · rw [hnext, Yielded.items_prepend] at h
      rcases List.mem_append.mp h with hfirst | hrest
      · rw [List.mem_singleton.mp hfirst]
        exact hsound
      · exact ih hrest

/-- The datagrams that were gone through, and how the loop came to its end. -/
theorem extractFrom_meaning (lib : IpAddressModule) (failure : Option Error)
    (packets : List PcapPacket) :
    ∃ rest, packets.filterMap (datagramIn lib) =
        (extractFrom lib failure packets).items.map ExtractedRtp.udp ++ rest ∧
      ((rest = [] ∧ (extractFrom lib failure packets).failure = failure) ∨
        ∃ udp later, rest = udp :: later ∧ udp.payload.toList.length < 12 ∧
          (extractFrom lib failure packets).failure =
            some (.rtpBufferTooShort 12 udp.payload.toList.length)) := by
  induction packets with
  | nil => exact ⟨[], rfl, .inl ⟨rfl, rfl⟩⟩
  | cons pkt packets ih =>
    obtain ⟨rest, hrest, hend⟩ := ih
    rcases extractFrom_cons_cases lib failure pkt packets with
      ⟨hnone, hnext⟩ | ⟨udp, hudp, ⟨hshort, hnext⟩ | ⟨first, -, hfirst, -, hnext⟩⟩
    · rw [hnext, List.filterMap_cons_none hnone]
      exact ⟨rest, hrest, hend⟩
    · rw [hnext, List.filterMap_cons_some hudp]
      exact ⟨_, rfl, .inr ⟨udp, _, rfl, hshort, rfl⟩⟩
    · rw [hnext, List.filterMap_cons_some hudp, hrest]
      refine ⟨rest, ?_, hend⟩
      rw [Yielded.items_prepend, List.map_append, List.map_singleton, hfirst]
      rfl

/-- Slices of slices that lie one behind the other. -/
theorem laidOut_extractFrom {data : Bytes} {place : Nat → Prop} {pos : Nat}
    (h : CutOut data place pos packets) :
    LaidOut data pos (extractFrom lib failure packets).items := by
  induction h with
  | nil => exact .nil _
  | @cons pos start packet packets behind placed stands captured rest ih =>
    have hskip : LaidOut data pos (extractFrom lib failure packets).items :=
      ih.of_le (by omega)
    rcases extractFrom_cons_cases lib failure packet packets with
      ⟨-, hnext⟩ | ⟨udp, -, ⟨-, hnext⟩ | ⟨first, hpacket, -, hsound, hnext⟩⟩
    · rw [hnext]
      exact hskip
    · rw [hnext]
      exact .nil _
    · have hview := hsound.view
      have hraw := standsAt_payload first.udp
      rw [hview, hpacket, ← hsound.raw] at hraw
      have hle := hraw.le_length
      rw [hnext]
      exact .cons (by omega) (stands.trans hraw) (ih.of_le (by omega))

end Run

theorem exists_cutOut_readCapture (data : Bytes) :
    ∃ place, CutOut data place 0 (readCapture data).items ∧
      ∀ e, (readCapture data).failure = some e → e.isCaptureError = true := by
  unfold readCapture
  split
  next =>
    have hsafe := readPcapngMode_safe true data
    exact ⟨_, hsafe.packets, hsafe.failure⟩
  next =>
    have hsafe := readPcapMode_safe true data
    exact ⟨_, hsafe.packets, hsafe.failure⟩

/-- Pulling RTP out of any file goes through the datagrams in order, and ends with them, with an
error of the capture, or at one too short for an RTP header. Its packets are views of slices of
the file, one behind the other; each accounts for every byte of its slice, and where strict parsing
does not raise it gives the same packet, from which the slice is built again up to the filler. -/
theorem extractRtp_sound (lib : IpAddressModule) (data : Bytes) :
    (∃ rest, (readCapture data).items.filterMap (datagramIn lib) =
        (extractRtp lib data).items.map ExtractedRtp.udp ++ rest ∧
      ((rest = [] ∧ (extractRtp lib data).failure = (readCapture data).failure ∧
          ∀ e, (readCapture data).failure = some e → e.isCaptureError = true) ∨
        ∃ udp later, rest = udp :: later ∧ udp.payload.toList.length < 12 ∧
          (extractRtp lib data).failure =
            some (.rtpBufferTooShort 12 udp.payload.toList.length))) ∧
    LaidOut data 0 (extractRtp lib data).items ∧
    ∀ found ∈ (extractRtp lib data).items, found.Sound lib := by
  obtain ⟨place, hcut, hfailure⟩ := exists_cutOut_readCapture data
  refine ⟨?_, laidOut_extractFrom hcut, fun found hfound => sound_of_mem_extractFrom hfound⟩
  obtain ⟨rest, hrest, hend⟩ :=
    extractFrom_meaning lib (readCapture data).failure (readCapture data).items
  refine ⟨rest, hrest, ?_⟩
  rcases hend with ⟨hnil, hsame⟩ | hshort
  · exact .inl ⟨hnil, hsame, hfailure⟩
  · exact .inr hshort

end Rtpkit

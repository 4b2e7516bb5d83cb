import Rtpkit.CaptureEditing
import Rtpkit.G711Accuracy
import Rtpkit.RtpExtraction
import Rtpkit.StreamDelivery
import Rtpkit.SyntheticCapture

namespace Rtpkit

open Outcome

/-- The packets of one stream of a capture, back in the order of their sequence numbers. -/
def callPackets (lib : IpAddressModule) (clockRate ssrc : Int) (data : Bytes) :
    Except Error (List RtpPacket) := do
  let found ← (extractRtp lib data).toExcept
  let tracker := trackerAfter (found.map fun f => ⟨f.rtp, f.packet.timestamp, clockRate⟩)
  tracker.orderedPackets ssrc

/-- `b"".join(...)` of the decoded payloads. -/
def decodeAll (decode : Bytes → Except G711.CodecError Bytes) (packets : List RtpPacket) :
    Except G711.CodecError Bytes :=
  List.flatten <$> packets.mapM fun packet => decode packet.payload

namespace SyntheticItem

variable {lib : IpAddressModule} {item : SyntheticItem} {pkt : PcapPacket}

/-- The RTP packet that a receiver should find. -/
def sentPacket (item : SyntheticItem) : RtpPacket := item.builder.packet item.builder.wire

theorem exists_extracted (h : item.record lib = .ok pkt) :
    ∃ udp, decapsulateUdp lib pkt.linkType pkt.data = .ok (some udp) ∧
      parseRtpLenient udp.payload.toList = .ok item.sentPacket := by
  obtain ⟨data, udp, hbuild, hcarries⟩ := Route.exists_carries h
  obtain ⟨hvalid, rfl⟩ := RtpBuilder.build_eq_ok.mp hbuild
  refine ⟨udp, hcarries.decapsulates, ?_⟩
  rw [hcarries.payload]
  exact (RtpBuilder.parse_wire hvalid false).trans (if_pos (.inr rfl))

end SyntheticItem

theorem map_packet_arrivalsOf (ssrc : Int) (run : List Arrival) :
    (arrivalsOf ssrc run).map Arrival.packet =
      (run.map Arrival.packet).filter fun packet => packet.ssrc = ssrc := by
  rw [arrivalsOf, List.filter_map]
  rfl

/-- The loop finds the packet of every item, rounded times or not. -/
theorem extractFrom_records {lib : IpAddressModule} {items : List SyntheticItem}
    {records : List PcapPacket}
    (h : List.Forall₂ (fun item pkt => item.record lib = .ok pkt) items records) :
    (extractFrom lib none (records.map PcapPacket.requantised)).failure = none ∧
      (extractFrom lib none (records.map PcapPacket.requantised)).items.map ExtractedRtp.rtp =
        items.map SyntheticItem.sentPacket := by
  induction h with
  | nil => exact ⟨rfl, rfl⟩
  | @cons item pkt items records hrecord _ ih =>
    obtain ⟨udp, hudp, hrtp⟩ := SyntheticItem.exists_extracted hrecord
    have hudp' : decapsulateUdp lib pkt.requantised.linkType pkt.requantised.data =
        .ok (some udp) := hudp
    have hnext : extractFrom lib none (pkt.requantised :: records.map PcapPacket.requantised) =
        (extractFrom lib none (records.map PcapPacket.requantised)).prepend
          [⟨pkt.requantised, udp, item.sentPacket⟩] := by
      rw [extractFrom, hudp']
      dsimp only
      rw [hrtp]
    obtain ⟨hfailure, hitems⟩ := ih
    rw [List.map_cons, hnext]
    refine ⟨hfailure, ?_⟩
    rw [Yielded.items_prepend, List.map_append, hitems]
    rfl

/-- A sender of G.711: the samples that it encodes into the packet with each number. -/
structure AudioSender (table : G711.DecodeTable) where
  host : ByteOrder
  ssrc : Int
  pcm : Int → Bytes
  builder : Int → RtpBuilder
  ssrc_builder : ∀ n, (builder n).ssrc = ssrc
  seq_builder : ∀ n, (builder n).seq = n % 65536
  payload_builder : ∀ n,
    G711.encode host (pcm n) (G711.buildEncodeLut table) = .ok (builder n).payload

namespace AudioSender

variable {table : G711.DecodeTable}

def stream (sender : AudioSender table) : SentStream where
  ssrc := sender.ssrc
  packet n := (sender.builder n).packet (sender.builder n).wire
  ssrc_packet := sender.ssrc_builder
  sequenceNumber_packet := sender.seq_builder

/-- The samples that are left of those of a packet. -/
def heard (sender : AudioSender table) (n : Int) : Bytes :=
  G711.pcmOf ((G711.samplesOf (sender.pcm n)).map table.quantise)

theorem even_pcm (sender : AudioSender table) (n : Int) : (sender.pcm n).length % 2 = 0 := by
  by_contra hodd
  have hpayload := sender.payload_builder n
  rw [G711.encode, G711.frombytes, require_neg hodd, bind_error, bind_error] at hpayload
  cases hpayload

theorem decode_payload (sender : AudioSender table) (h : table.Is16Bit) (receiver : ByteOrder)
    (n : Int) : G711.decode receiver (sender.builder n).payload table = .ok (sender.heard n) := by
  have hboth := G711.encode_then_decode h sender.host receiver (sender.pcm n)
  rw [sender.payload_builder n, bind_ok, if_pos (sender.even_pcm n)] at hboth
  exact hboth

theorem decodeAll_ordered (sender : AudioSender table) (h : table.Is16Bit) (receiver : ByteOrder)
    (order : List Int) :
    decodeAll (fun data => G711.decode receiver data table) (order.map sender.stream.packet) =
      .ok (order.map sender.heard).flatten := by
  have hall : (order.map sender.stream.packet).mapM
      (fun packet => G711.decode receiver packet.payload table) =
        .ok (order.map sender.heard) := by
    rw [mapM_eq_ok, List.forall₂_map_left_iff, List.forall₂_map_right_iff, List.forall₂_same]
    exact fun n _ => sender.decode_payload h receiver n
  rw [decodeAll, hall]
  rfl

/-- What arrives of the sender is what a capture holds of it, in that order. -/
theorem delivers_records (sender : AudioSender table) {lib : IpAddressModule}
    {items : List SyntheticItem} {records : List PcapPacket} {ns : List Int}
    (hrecords : List.Forall₂ (fun item pkt => item.record lib = .ok pkt) items records)
    (hown : (items.filter fun item => item.builder.ssrc = sender.ssrc).map
      SyntheticItem.builder = ns.map sender.builder) (clockRate : Int) :
    sender.stream.Delivers ((extractFrom lib none (records.map PcapPacket.requantised)).items.map
      fun f => ⟨f.rtp, f.packet.timestamp, clockRate⟩) ns := by
  obtain ⟨-, hitems⟩ := extractFrom_records hrecords
  rw [SentStream.Delivers, map_packet_arrivalsOf, List.map_map]
  have harrivals : (extractFrom lib none (records.map PcapPacket.requantised)).items.map
      (Arrival.packet ∘ fun f => (⟨f.rtp, f.packet.timestamp, clockRate⟩ : Arrival)) =
        items.map SyntheticItem.sentPacket := by
    rw [← hitems]
    rfl
  have hsent := congrArg (List.map fun b : RtpBuilder => b.packet b.wire) hown
  rw [List.map_map, List.map_map] at hsent
  rw [harrivals, List.filter_map]
  exact hsent

end AudioSender

/-- Audio that is encoded, packed, put into frames and captured, where packets were lost, doubled
or late by less than half a cycle of the sequence numbers, and among the packets of other streams,
is heard in order from either kind of file: every sample that got through, as far as a code can
tell it from others. -/
theorem call_recovered (lib : IpAddressModule) {table : G711.DecodeTable} (h16 : table.Is16Bit)
    (sender : AudioSender table) {items : List SyntheticItem} {records : List PcapPacket}
    {format : CaptureFormat} {b : Bytes} {ns order : List Int}
    (htime : ∀ item ∈ items, 0 ≤ item.timestamp)
    (hown : (items.filter fun item => item.builder.ssrc = sender.ssrc).map
      SyntheticItem.builder = ns.map sender.builder)
    (hnear : SerialNumber.StaysNear 32768 ns)
    (hrecords : items.mapM (SyntheticItem.record lib) = .ok records)
    (hwrite : format.write records = .ok b)
    (hsorted : order.Pairwise (· < ·)) (hset : ∀ n, n ∈ order ↔ n ∈ ns)
    (receiver : ByteOrder) (clockRate : Int) :
    ∃ packets, callPackets lib clockRate sender.ssrc b = .ok packets ∧
      decodeAll (fun data => G711.decode receiver data table) packets =
        .ok (order.map sender.heard).flatten := by
  have hpairs := mapM_eq_ok.mp hrecords
  have htimes := Route.timestamps_nonneg SyntheticItem.toRoute
    (fun item => item.builder.build) htime hrecords
  have hread := readCapture_write htimes hwrite
  obtain ⟨hfailure, -⟩ := extractFrom_records hpairs
  have hextract : extractRtp lib b =
      extractFrom lib none (records.map PcapPacket.requantised) := by rw [extractRtp, hread]
  have hfound : (extractRtp lib b).toExcept = .ok (extractRtp lib b).items := by
    rw [Yielded.toExcept, hextract, hfailure]
  have hdelivers := sender.delivers_records hpairs hown clockRate
  rw [← hextract] at hdelivers
  have hordered := hdelivers.orderedPackets_eq hnear hsorted hset
  refine ⟨order.map sender.stream.packet, ?_, sender.decodeAll_ordered h16 receiver order⟩
  rw [callPackets, hfound]
  exact hordered

/-- A sender with one sample in each packet. -/
def oneSampleSender : AudioSender G711.ulawDecode where
  host := .little
  ssrc := 7
  pcm n := [UInt8.ofNat (n % 256).toNat, 3]
  builder n := {
    seq := n % 65536
    ssrc := 7
    payload := (G711.samplesOf [UInt8.ofNat (n % 256).toNat, 3]).map
      (G711.nearestCode G711.ulawDecode) }
  ssrc_builder _ := rfl
  seq_builder _ := rfl
  payload_builder n := G711.encode_buildEncodeLut G711.ulawDecode .little (by simp)

def oneSampleItem (n : Int) : SyntheticItem :=
  { sampleItem "10.0.0.1" "10.0.0.2" with builder := oneSampleSender.builder n }

theorem oneSampleItem_valid (n : Int) : (oneSampleItem n).Valid sampleAddresses := by
  have haddr : (sampleItem "10.0.0.1" "10.0.0.2").Valid sampleAddresses :=
    sampleItem_valid (.v4 ⟨[10, 0, 0, 1], rfl⟩) (.v4 ⟨[10, 0, 0, 2], rfl⟩) (by decide +kernel)
      (by decide +kernel) (by decide +kernel) (by decide +kernel) rfl
  have hbuilder : (oneSampleSender.builder n).Valid := by
    refine ⟨by simp [oneSampleSender], by simp [oneSampleSender], ?_, by simp [oneSampleSender, u32],
      by simp [oneSampleSender, u32], by simp [oneSampleSender, maxCsrc], by simp [oneSampleSender],
      by simp [oneSampleSender], by simp [oneSampleSender]⟩
    simp only [oneSampleSender, u16]
    omega
  obtain ⟨src, dst, hsrc, hdst, hversion, -⟩ := haddr.addresses
  refine ⟨hbuilder, rfl, haddr.linkType, haddr.srcIp, haddr.dstIp, haddr.srcPort, haddr.dstPort,
    src, dst, hsrc, hdst, hversion, fun rtp hrtp => ?_⟩
  obtain ⟨-, rfl⟩ := RtpBuilder.build_eq_ok.mp hrtp
  have hlen : (oneSampleSender.builder n).wire.length = 13 := rfl
  show (oneSampleSender.builder n).wire.length ≤ maxUdpPayload src
  rw [hlen, maxUdpPayload]
  split
  next => decide
  next => decide

/-- Two packets that change places and one that comes twice, around the end of a cycle. -/
theorem call_recovered_wrapped : ∃ b packets,
    callPackets sampleAddresses 8000 7 b = .ok packets ∧
      decodeAll (fun data => G711.decode .big data G711.ulawDecode) packets =
        .ok ([131071, 131072].map oneSampleSender.heard).flatten := by
  have hvalid : ∀ item ∈ [131072, 131071, 131072].map oneSampleItem,
      item.Valid sampleAddresses := by
    rw [List.forall_mem_map]
    exact fun n _ => oneSampleItem_valid n
  obtain ⟨records, hrecords⟩ := exists_mapM_eq_ok fun item hitem =>
    let ⟨pkt, hpkt, _⟩ := (hvalid item hitem).exists_record
    ⟨pkt, hpkt⟩
  obtain ⟨b, hwrite, -⟩ := SyntheticItem.exists_readCapture_writePcapng hvalid hrecords
  have hnear : ∀ i < 3, ∀ n ∈ ([131072, 131071, 131072] : List Int)[i]?,
      ∀ m ∈ (([131072, 131071, 131072] : List Int).take i).max?, |n - m| < 32768 := by
    decide +kernel
  have htime : ∀ item ∈ [131072, 131071, 131072].map oneSampleItem, 0 ≤ item.timestamp := by
    rw [List.forall_mem_map]
    exact fun n _ => show (0 : ℚ) ≤ 1 / 3 by norm_num
  have hown : (([131072, 131071, 131072].map oneSampleItem).filter fun item =>
      item.builder.ssrc = oneSampleSender.ssrc).map SyntheticItem.builder =
        [131072, 131071, 131072].map oneSampleSender.builder := by
    rw [List.filter_eq_self.mpr]
    · rfl
    · rw [List.forall_mem_map]
      exact fun n _ => rfl
  have hset : ∀ n : Int, n ∈ [131071, 131072] ↔ n ∈ [131072, 131071, 131072] := by
    intro n
    simp only [List.mem_cons, List.not_mem_nil, or_false]
    omega
  have hfile : CaptureFormat.pcapng.write records = .ok b := hwrite
  obtain ⟨packets, hpackets, hpcm⟩ := call_recovered sampleAddresses G711.ulawDecode_is16Bit
    oneSampleSender htime hown
    (fun i n m hn hm => hnear i (List.getElem?_eq_some_iff.mp hn).1 n hn m hm) hrecords hfile
    (show ([131071, 131072] : List Int).Pairwise (· < ·) by decide) hset .big 8000
  exact ⟨b, packets, hpackets, hpcm⟩

end Rtpkit

import Rtpkit.EncapImage
import Rtpkit.FrameDecap

namespace Rtpkit

open Outcome

/-- The IPv4 header of a built frame, with the checksum left open. -/
def plainIpv4 (source destination : FixedBytes 4) (checksum : Nat) : Ipv4Header where
  tos := ⟨Fmt.wire .B 0, rfl⟩
  identification := ⟨Fmt.wire .H 0, rfl⟩
  flags := 0
  ttl := ⟨Fmt.wire .B 64, rfl⟩
  checksum := ⟨Fmt.wire .H checksum, Fmt.length_wire _ _⟩
  source := source
  destination := destination
  options := []
  flags_lt := by decide
  options_aligned := rfl
  options_le := by decide

def plainIpv6 (source destination : FixedBytes 16) (payloadLength : Nat) : Ipv6Header where
  classAndFlow := 0
  payloadLength := ⟨Fmt.wire .H payloadLength, Fmt.length_wire _ _⟩
  hopLimit := ⟨Fmt.wire .B 64, rfl⟩
  source := source
  destination := destination
  chain := []
  classAndFlow_lt := classAndFlow_zero_lt

section Synthetic

variable {src dst : IpAddress} {srcPort dstPort : Int} {payload : Bytes}

theorem exists_link {linkType : Int} (h : SupportedLink linkType) :
    ∃ link : Link, link.linkType = linkType ∧ link.tagCount = 0 ∧
      ∀ ethertype, link.wire ethertype = linkHead linkType ethertype := by
  rcases h with rfl | rfl | rfl
  · refine ⟨.ethernet ⟨dummyDstMac ++ dummySrcMac, rfl⟩ [], rfl, rfl, fun ethertype => ?_⟩
    rw [linkHead, if_pos rfl, ← List.append_assoc]
    rfl
  · refine ⟨.sll ⟨Fmt.wire .H 0 ++ (Fmt.wire .H 1 ++ (Fmt.wire .H 0 ++ zeros 8)), rfl⟩, rfl, rfl,
      fun ethertype => ?_⟩
    rw [linkHead, if_neg (by decide), if_pos rfl, Link.wire]
    simp only [List.append_assoc]
  · exact ⟨.raw, rfl, rfl, fun ethertype => rfl⟩

/-- An IP header that is built is one without options or extension headers. -/
theorem exists_ipHeader (h : Encapsulable src dst srcPort dstPort payload) :
    ∃ ip : IpHeader, ip.ethertype = ethertypeOf src ∧ ip.source = src ∧ ip.destination = dst ∧
      ip.extCount = 0 ∧ 8 + payload.length ≤ ip.room ∧
      ip.wire (8 + payload.length) = ipHead src dst (8 + payload.length) := by
  have hlen := h.length_le
  have hversion := h.version
  cases src with
  | v4 source =>
    cases dst with
    | v6 destination => cases hversion
    | v4 destination =>
      rw [IpAddress.version_v4, if_pos rfl] at hlen
      refine ⟨.v4 (plainIpv4 source destination (checksum16
        (ipv4Fields (20 + (8 + payload.length)) ++ (Fmt.wire .H 0 ++ (source.1 ++ destination.1))))),
        rfl, rfl, rfl, rfl, ?_, ?_⟩
      · rw [IpHeader.room, plainIpv4, List.length_nil]
        omega
      · rw [ipHead, IpAddress.version_v4, if_pos rfl, ipv4Head, ipv4Fields, IpHeader.wire,
          Ipv4Header.wire]
        simp only [plainIpv4, IpAddress.packed, List.append_assoc, List.append_nil, List.length_nil]
        rfl
  | v6 source =>
    cases dst with
    | v4 destination => cases hversion
    | v6 destination =>
      rw [IpAddress.version_v6, if_neg (by decide), Nat.zero_add] at hlen
      refine ⟨.v6 (plainIpv6 source destination (8 + payload.length)), rfl, rfl, rfl, rfl, hlen, ?_⟩
      rw [ipHead, IpAddress.version_v6, if_neg (by decide), ipv6Head, IpHeader.wire, Ipv6Header.wire]
      simp only [plainIpv6, IpAddress.packed, nextNumber, chainWire, List.append_nil]
      rfl

/-- Every frame that is built is a well-formed one, with nothing behind the datagram. -/
theorem exists_udpFrame {linkType : Int} (hlink : SupportedLink linkType)
    (h : Encapsulable src dst srcPort dstPort payload) :
    ∃ frame : UdpFrame, frame.wire = frameOf linkType src dst srcPort dstPort payload ∧
      frame.link.linkType = linkType ∧ frame.link.tagCount = 0 ∧ frame.ip.extCount = 0 ∧
      frame.ip.source = src ∧ frame.ip.destination = dst ∧ (frame.srcPort : Int) = srcPort ∧
      (frame.dstPort : Int) = dstPort ∧ frame.payload = payload := by
  obtain ⟨link, hlinkType, htags, hlinkWire⟩ := exists_link hlink
  obtain ⟨ip, htype, hsource, hdestination, hext, hroom, hipWire⟩ := exists_ipHeader h
  obtain ⟨⟨hsrcNonneg, hsrcLe⟩, hdstNonneg, hdstLe⟩ := And.intro h.srcPort h.dstPort
  obtain ⟨srcNat, rfl⟩ := Int.eq_ofNat_of_zero_le hsrcNonneg
  obtain ⟨dstNat, rfl⟩ := Int.eq_ofNat_of_zero_le hdstNonneg
  refine ⟨{
    link := link
    ip := ip
    srcPort := srcNat
    dstPort := dstNat
    checksum := ⟨Fmt.wire .H (udpChecksumOf (pseudoHeader src dst (8 + payload.length))
      (udpFields srcNat dstNat (8 + payload.length)) payload), Fmt.length_wire _ _⟩
    payload := payload
    trailer := []
    srcPort_le := by omega
    dstPort_le := by omega
    length_le := hroom }, ?_, hlinkType, htags, hext, hsource, hdestination, rfl, rfl, rfl⟩
  rw [UdpFrame.wire, UdpFrame.segment, frameOf, ipWire, length_udpWire, udpWire, udpFields]
  dsimp only
  rw [hlinkWire, htype, hipWire]
  simp only [List.append_assoc, List.append_nil]

theorem encapsulable_iff :
    Encapsulable src dst srcPort dstPort payload ↔
      src.version = dst.version ∧ (0 ≤ srcPort ∧ srcPort < 2 ^ 16) ∧
        (0 ≤ dstPort ∧ dstPort < 2 ^ 16) ∧
        payload.length ≤ if src.version = 4 then 65507 else 65527 := by
  constructor
  · intro h
    have hsrc := h.srcPort
    have hdst := h.dstPort
    exact ⟨h.version, by omega, by omega, h.payload⟩
  · rintro ⟨hversion, hsrc, hdst, hpayload⟩
    exact ⟨hversion, by omega, by omega, hpayload⟩

theorem exists_decapsulateUdp_frameOf (lib : IpAddressModule) {linkType : Int}
    (hlink : SupportedLink linkType) (h : Encapsulable src dst srcPort dstPort payload) :
    ∃ udp, decapsulateUdp lib linkType (frameOf linkType src dst srcPort dstPort payload) =
        .ok (some udp) ∧
      IsDatagram lib src dst srcPort dstPort payload udp := by
  obtain ⟨frame, hwire, rfl, htags, hext, rfl, rfl, rfl, rfl, rfl⟩ := exists_udpFrame hlink h
  rw [← hwire]
  exact frame.exists_decapsulateUdp lib (by omega) (by omega)

end Synthetic

/-- `encapsulate_udp` returns a frame for the arguments in range and raises an encapsulation error
for all others, and `decapsulate_udp` takes the datagram out of every frame again. -/
theorem encapsulateUdp_decapsulateUdp (lib : IpAddressModule) (linkType : Int)
    (srcIp dstIp : String) (srcPort dstPort : Int) (payload : Bytes) :
    FailsOnly IsEncapsulationError
      (encapsulateUdp lib linkType srcIp dstIp srcPort dstPort payload) ∧
    ((∃ frame, encapsulateUdp lib linkType srcIp dstIp srcPort dstPort payload = .ok frame) ↔
      ∃ src dst, lib.ipAddress srcIp = some src ∧ lib.ipAddress dstIp = some dst ∧
        src.version = dst.version ∧ (0 ≤ srcPort ∧ srcPort < 2 ^ 16) ∧
        (0 ≤ dstPort ∧ dstPort < 2 ^ 16) ∧
        payload.length ≤ (if src.version = 4 then 65507 else 65527) ∧
        (linkType = 1 ∨ linkType = 101 ∨ linkType = 113)) ∧
    ∀ frame, encapsulateUdp lib linkType srcIp dstIp srcPort dstPort payload = .ok frame →
      ∃ src dst udp, lib.ipAddress srcIp = some src ∧ lib.ipAddress dstIp = some dst ∧
        decapsulateUdp lib linkType frame = .ok (some udp) ∧
        udp.srcIp = lib.text src ∧ udp.dstIp = lib.text dst ∧
        (lib.Canonical srcIp → udp.srcIp = srcIp) ∧ (lib.Canonical dstIp → udp.dstIp = dstIp) ∧
        udp.srcPort = srcPort ∧ udp.dstPort = dstPort ∧ udp.payload.toList = payload := by
  refine ⟨encapsulateUdp_failsOnly, ?_, ?_⟩
  · constructor
    · rintro ⟨frame, hframe⟩
      obtain ⟨src, dst, hsrc, hdst, hvalid, hlink, -⟩ := encapsulateUdp_eq_ok_iff.mp hframe
      obtain ⟨hversion, hsrcPort, hdstPort, hpayload⟩ := encapsulable_iff.mp hvalid
      exact ⟨src, dst, hsrc, hdst, hversion, hsrcPort, hdstPort, hpayload, hlink.imp_right Or.symm⟩
    · rintro ⟨src, dst, hsrc, hdst, hversion, hsrcPort, hdstPort, hpayload, hlink⟩
      have hvalid := encapsulable_iff.mpr ⟨hversion, hsrcPort, hdstPort, hpayload⟩
      exact ⟨_, encapsulateUdp_eq_ok_iff.mpr
        ⟨src, dst, hsrc, hdst, hvalid, hlink.imp_right Or.symm, rfl⟩⟩
  · intro frame hframe
    obtain ⟨src, dst, hsrc, hdst, hvalid, hlink, rfl⟩ := encapsulateUdp_eq_ok_iff.mp hframe
    obtain ⟨udp, hudp, hfields⟩ := exists_decapsulateUdp_frameOf lib hlink hvalid
    exact ⟨src, dst, udp, hsrc, hdst, hudp, hfields.srcIp, hfields.dstIp,
      fun hcanonical => hfields.srcIp.trans (hcanonical.text_eq hsrc),
      fun hcanonical => hfields.dstIp.trans (hcanonical.text_eq hdst),
      hfields.srcPort, hfields.dstPort, hfields.payload⟩

/-- The largest payload of IPv4 is carried, and one byte more is refused. -/
theorem encapsulateUdp_decapsulateUdp_largest :
    (∃ frame udp, encapsulateUdp sampleAddresses 113 "10.0.0.1" "10.0.0.2" 5004 5006
        (List.replicate 65507 0) = .ok frame ∧
      decapsulateUdp sampleAddresses 113 frame = .ok (some udp) ∧ udp.srcIp = "10.0.0.1" ∧
      udp.dstIp = "10.0.0.2" ∧ udp.payload.toList = List.replicate 65507 0) ∧
    ¬∃ frame, encapsulateUdp sampleAddresses 113 "10.0.0.1" "10.0.0.2" 5004 5006
      (List.replicate 65508 0) = .ok frame := by
  have hsrc : sampleAddresses.ipAddress "10.0.0.1" = some (.v4 ⟨[10, 0, 0, 1], rfl⟩) := by
    decide +kernel
  have hdst : sampleAddresses.ipAddress "10.0.0.2" = some (.v4 ⟨[10, 0, 0, 2], rfl⟩) := by
    decide +kernel
  have hsrcText : sampleAddresses.Canonical "10.0.0.1" := ⟨_, hsrc, by decide +kernel⟩
  have hdstText : sampleAddresses.Canonical "10.0.0.2" := ⟨_, hdst, by decide +kernel⟩
  constructor
  · obtain ⟨-, hreturns, hinverse⟩ := encapsulateUdp_decapsulateUdp sampleAddresses 113 "10.0.0.1"
      "10.0.0.2" 5004 5006 (List.replicate 65507 0)
    obtain ⟨frame, hframe⟩ := hreturns.mpr ⟨_, _, hsrc, hdst, rfl, by decide, by decide,
      by rw [List.length_replicate]; decide, by decide⟩
    obtain ⟨-, -, udp, -, -, hudp, -, -, hsrcIp, hdstIp, -, -, hpayload⟩ := hinverse frame hframe
    exact ⟨frame, udp, hframe, hudp, hsrcIp hsrcText, hdstIp hdstText, hpayload⟩
  · intro hreturned
    obtain ⟨-, hreturns, -⟩ := encapsulateUdp_decapsulateUdp sampleAddresses 113 "10.0.0.1"
      "10.0.0.2" 5004 5006 (List.replicate 65508 0)
    obtain ⟨src, -, hparsed, -, -, -, -, hpayload, -⟩ := hreturns.mp hreturned
    cases hsrc.symm.trans hparsed
    rw [List.length_replicate] at hpayload
    exact absurd hpayload (by decide)

end Rtpkit

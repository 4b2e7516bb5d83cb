import Rtpkit.ExtChain

namespace Rtpkit

open Chunk

/-- The length that an IP packet declares for itself. -/
def declaredLength (ethertype : Nat) (ip : Bytes) : Nat :=
  if ethertype = ethertypeIpv4 then halfAt ip 2 else 40 + halfAt ip 4

/-- Where the payload ends behind a UDP header at `start` in a segment that ends at `stop`. -/
def payloadStop (ip : Bytes) (start stop : Nat) : Nat :=
  if 8 ≤ halfAt ip (start + 4) ∧ start + halfAt ip (start + 4) ≤ stop then
    start + halfAt ip (start + 4)
  else stop

theorem UdpHeaderAt.unique {ethertype start start' : Nat} {ip : Bytes}
    (h : UdpHeaderAt ethertype ip start) (h' : UdpHeaderAt ethertype ip start') :
    start = start' := by
  have hsegment := ipSegment_eq_some_iff.mpr ⟨h, rfl⟩
  have hsegment' := ipSegment_eq_some_iff.mpr ⟨h', rfl⟩
  cases hsegment.symm.trans hsegment'
  rfl

theorem add_udpStop_slice {data : Bytes} {off start stop : Nat} (hroom : start + 8 ≤ stop)
    (hstop : off + stop ≤ data.length) :
    off + start + udpStop (Chunk.slice data (off + start) (off + stop)) =
      off + payloadStop (data.drop off) start stop := by
  have hlen : (Chunk.slice data (off + start) (off + stop)).length = stop - start := by
    rw [length_slice]
    omega
  rw [udpStop, payloadStop, halfAt_slice (by omega), halfAt_drop, hlen, ← Nat.add_assoc]
  by_cases hfits : 8 ≤ halfAt data (off + start + 4) ∧
      start + halfAt data (off + start + 4) ≤ stop
  · rw [if_pos hfits, if_pos ⟨hfits.1, by omega⟩, Nat.add_assoc]
  · rw [if_neg hfits, if_neg (by omega)]
    omega

/-- Where the payload of a datagram lies in its frame. -/
theorem payload_datagramAt (lib : IpAddressModule) (ends : IpAddress × IpAddress) {frame : Bytes}
    {start stop : Nat} (hroom : start + 8 ≤ stop) (hstop : stop ≤ frame.length) :
    (datagramAt lib ends frame start stop).payload.buffer = frame ∧
      (datagramAt lib ends frame start stop).payload.start = start + 8 ∧
      (datagramAt lib ends frame start stop).payload.stop =
        start + udpStop (Chunk.slice frame start stop) := by
  have hle := udpStop_le (Chunk.slice frame start stop)
  have hge : 8 ≤ udpStop (Chunk.slice frame start stop) := by
    apply le_udpStop
    rw [length_slice]
    omega
  rw [length_slice] at hle
  have hwhole : start + udpStop (Chunk.slice frame start stop) ≤
      (MemoryView.ofList frame).length := by
    rw [MemoryView.length_ofList]
    omega
  refine ⟨rfl, ?_, ?_⟩
  · rw [datagramAt, MemoryView.start_slice (by omega)]
    exact Nat.zero_add _
  · rw [datagramAt, MemoryView.stop_slice (by omega) hwhole]
    exact Nat.zero_add _

theorem payloadStop_le (ip : Bytes) (start stop : Nat) : payloadStop ip start stop ≤ stop := by
  unfold payloadStop
  split
  next h => exact h.2
  next => exact Nat.le_refl _

/-- A total length that makes sense is where an IPv4 segment ends. -/
theorem segmentStop_eq_declaredLength {ip : Bytes} {start : Nat}
    (hheader : UdpHeaderAt ethertypeIpv4 ip start)
    (hcovers : start ≤ declaredLength ethertypeIpv4 ip)
    (hcaptured : declaredLength ethertypeIpv4 ip ≤ ip.length) :
    segmentStop ethertypeIpv4 ip = declaredLength ethertypeIpv4 ip := by
  rcases hheader with ⟨-, -, rfl⟩ | ⟨hv6, -⟩
  · rw [declaredLength, if_pos rfl] at hcovers hcaptured ⊢
    rw [segmentStop, if_pos rfl, ipv4Stop, if_pos ⟨hcovers, hcaptured⟩]
  · exact absurd hv6 (by decide)

theorem payloadStop_le_declaredLength_iff {ethertype start : Nat} {ip : Bytes}
    (hheader : UdpHeaderAt ethertype ip start) (hcovers : start + 8 ≤ declaredLength ethertype ip)
    (hcaptured : declaredLength ethertype ip ≤ ip.length) :
    payloadStop ip start (segmentStop ethertype ip) ≤ declaredLength ethertype ip ↔
      ethertype = ethertypeIpv4 ∨ declaredLength ethertype ip = ip.length ∨
        (8 ≤ halfAt ip (start + 4) ∧
          start + halfAt ip (start + 4) ≤ declaredLength ethertype ip) := by
  by_cases hv4 : ethertype = ethertypeIpv4
  · subst hv4
    have hstop := segmentStop_eq_declaredLength hheader (by omega) hcaptured
    have hle := payloadStop_le ip start (segmentStop ethertypeIpv4 ip)
    exact ⟨fun _ => .inl rfl, fun _ => by omega⟩
  · rw [segmentStop, if_neg hv4, payloadStop]
    constructor
    · intro hle
      split at hle
      next hudp => exact .inr (.inr ⟨hudp.1, hle⟩)
      next => exact .inr (.inl (by omega))
    · rintro (hv4' | hall | hudp)
      · exact absurd hv4' hv4
      · split
        next hfits => omega
        next => omega
      · rw [if_pos ⟨hudp.1, by omega⟩]
        exact hudp.2

section Payload

variable {lib : IpAddressModule} {linkType : Int} {frame : Bytes} {udp : DecapsulatedUdp}
  {ethertype ipStart start : Nat}

theorem segmentStop_le (hheader : UdpHeaderAt ethertype (frame.drop ipStart) start) :
    segmentStop ethertype (frame.drop ipStart) ≤ (frame.drop ipStart).length :=
  (ipSegment_bounds (ipSegment_eq_some_iff.mpr ⟨hheader, rfl⟩)).2

/-- Where the payload lies that is taken out of a frame. -/
theorem payload_of_decapsulateUdp (h : decapsulateUdp lib linkType frame = .ok (some udp))
    (hlink : linkLayer linkType frame = some (ethertype, ipStart))
    (hheader : UdpHeaderAt ethertype (frame.drop ipStart) start) :
    udp.payload.buffer = frame ∧ udp.payload.start = ipStart + start + 8 ∧
      udp.payload.stop = ipStart + payloadStop (frame.drop ipStart) start
        (segmentStop ethertype (frame.drop ipStart)) := by
  obtain ⟨ethertype', ipStart', start', hlink', hheader', hroom, rfl⟩ :=
    decapsulateUdp_eq_some_iff_headerAt.mp h
  cases hlink.symm.trans hlink'
  cases hheader.unique hheader'
  have hip := linkLayer_le hlink
  have hstop := segmentStop_le hheader
  rw [List.length_drop] at hstop
  rw [← add_udpStop_slice hroom (by omega)]
  exact payload_datagramAt lib _ (by omega) (by omega)

/-- The payload keeps to the bytes that the packet declares exactly when the packet is IPv4, or
nothing is behind it, or the length in the UDP header says to stop there. -/
theorem payload_within_iff (h : decapsulateUdp lib linkType frame = .ok (some udp))
    (hlink : linkLayer linkType frame = some (ethertype, ipStart))
    (hheader : UdpHeaderAt ethertype (frame.drop ipStart) start)
    (hcovers : start + 8 ≤ declaredLength ethertype (frame.drop ipStart))
    (hcaptured : declaredLength ethertype (frame.drop ipStart) ≤ (frame.drop ipStart).length) :
    (udp.payload.buffer = frame ∧ ipStart ≤ udp.payload.start ∧
        udp.payload.stop ≤ ipStart + declaredLength ethertype (frame.drop ipStart)) ↔
      ethertype = ethertypeIpv4 ∨
        declaredLength ethertype (frame.drop ipStart) = (frame.drop ipStart).length ∨
        (8 ≤ halfAt (frame.drop ipStart) (start + 4) ∧
          start + halfAt (frame.drop ipStart) (start + 4) ≤
            declaredLength ethertype (frame.drop ipStart)) := by
  obtain ⟨hbuffer, hstart, hstop⟩ := payload_of_decapsulateUdp h hlink hheader
  rw [← payloadStop_le_declaredLength_iff hheader hcovers hcaptured, hstart, hstop]
  constructor
  · rintro ⟨-, -, hle⟩
    omega
  · exact fun hle => ⟨hbuffer, by omega, by omega⟩

end Payload

/-- An IPv6 packet with one byte of payload and two bytes of a trailer behind it. -/
def trailedV6 (udpLength : UInt8) : Bytes :=
  [0x60, 0, 0, 0, 0, 9, 17, 64] ++
    [0x20, 0x01, 0x0d, 0xb8, 0, 0, 0, 0, 0, 0, 0, 0, 0, 0, 0, 1] ++
    [0x20, 0x01, 0x0d, 0xb8, 0, 0, 0, 0, 0, 0, 0, 0, 0, 0, 0, 2] ++
    [0, 1, 0, 2, 0, udpLength, 0, 0] ++ [0xAA] ++ [0xEE, 0xEE]

theorem payload_within_iff_trailedV6 :
    ∃ udp, decapsulateUdp sampleAddresses dltRaw (trailedV6 9) = .ok (some udp) ∧
      udp.payload.stop ≤ declaredLength ethertypeIpv6 (trailedV6 9) := by
  have hlink : linkLayer dltRaw (trailedV6 9) = some (ethertypeIpv6, 0) := by decide
  have hheader : UdpHeaderAt ethertypeIpv6 ((trailedV6 9).drop 0) 40 :=
    .inr ⟨rfl, by decide, by decide, [], .nil _ _, by decide⟩
  have hfound : decapsulateUdp sampleAddresses dltRaw (trailedV6 9) = .ok (some _) :=
    decapsulateUdp_eq_some_iff_headerAt.mpr ⟨_, _, _, hlink, hheader, by decide, rfl⟩
  obtain ⟨-, -, hstop⟩ := (payload_within_iff hfound hlink hheader (by decide) (by decide)).mpr
    (.inr (.inr (by decide)))
  exact ⟨_, hfound, hstop.trans (Nat.le_of_eq (Nat.zero_add _))⟩

/-- With a UDP length of zero the trailer is taken for payload. -/
theorem trailedV6_taken : ∃ udp,
    decapsulateUdp sampleAddresses dltRaw (trailedV6 0) = .ok (some udp) ∧
    linkLayer dltRaw (trailedV6 0) = some (ethertypeIpv6, 0) ∧
    UdpHeaderAt ethertypeIpv6 (trailedV6 0) 40 ∧
    40 + 8 ≤ declaredLength ethertypeIpv6 (trailedV6 0) ∧
    declaredLength ethertypeIpv6 (trailedV6 0) ≤ (trailedV6 0).length ∧
    udp.payload.toList = [0xAA, 0xEE, 0xEE] ∧
    ¬udp.payload.stop ≤ declaredLength ethertypeIpv6 (trailedV6 0) := by
  refine ⟨datagramAt sampleAddresses (endpoints ethertypeIpv6 (trailedV6 0)) (trailedV6 0) 40 51,
    by decide +kernel, by decide, ?_, by decide, by decide, by decide +kernel, by decide +kernel⟩
  exact .inr ⟨rfl, by decide, by decide, [], .nil _ _, by decide⟩

end Rtpkit

import Rtpkit.DeclaredLength

namespace Rtpkit

open Chunk

/-- The IPv4 header at `ip` in a frame that announces a UDP header at `k`. -/
structure Ipv4HeaderAt (frame : Bytes) (ip k : Nat) (source destination : FixedBytes 4) :
    Prop where
  version : byteAt frame ip >>> 4 = 4
  headerLength : 20 ≤ (byteAt frame ip &&& 0x0F) * 4
  stop : ip + (byteAt frame ip &&& 0x0F) * 4 = k
  protocol : byteAt frame (ip + 9) = protoUdp
  source : slice frame (ip + 12) (ip + 16) = source.1
  destination : slice frame (ip + 16) (ip + 20) = destination.1

/-- The IPv6 header at `ip` in a frame whose extension headers lead to a UDP header at `k`. -/
structure Ipv6HeaderAt (frame : Bytes) (ip k : Nat) (source destination : FixedBytes 16) :
    Prop where
  version : byteAt frame ip >>> 4 = 6
  stop : ip + 40 ≤ k
  chain : ∃ headers, ExtChain (frame.drop ip) (byteAt frame (ip + 6)) 40 headers protoUdp (k - ip) ∧
    headers.length ≤ maxIpv6ExtHeaders
  source : slice frame (ip + 8) (ip + 24) = source.1
  destination : slice frame (ip + 24) (ip + 40) = destination.1

/-- A total length between the header length and the captured bytes limits an IPv4 datagram. -/
def ipv4Limit (frame : Bytes) (ip k : Nat) : Nat :=
  if k ≤ ip + halfAt frame (ip + 2) ∧ ip + halfAt frame (ip + 2) ≤ frame.length then
    ip + halfAt frame (ip + 2)
  else frame.length

/-- The two addresses in the IP header in front of a UDP header at `k`, and the end of what is
taken for its datagram. -/
inductive IpHeaderBefore (frame : Bytes) (k : Nat) : IpAddress → IpAddress → Nat → Prop
  | v4 {ip : Nat} {source destination : FixedBytes 4}
      (header : Ipv4HeaderAt frame ip k source destination) :
      IpHeaderBefore frame k (.v4 source) (.v4 destination) (ipv4Limit frame ip k)
  | v6 {ip : Nat} {source destination : FixedBytes 16}
      (header : Ipv6HeaderAt frame ip k source destination) :
      IpHeaderBefore frame k (.v6 source) (.v6 destination) frame.length

theorem ExtChain.le_stop {data : Bytes} {nextHeader offset last stop : Nat}
    {headers : List (Nat × Nat)} (h : ExtChain data nextHeader offset headers last stop) :
    offset ≤ stop := by
  induction h with
  | nil => exact Nat.le_refl _
  | cons hext hroom hrest ih => exact Nat.le_trans (Nat.le_add_right _ _) ih

theorem byteAt_drop (data : Bytes) (off i : Nat) :
    byteAt (data.drop off) i = byteAt data (off + i) := by
  rw [byteAt, byteAt, List.getD_eq_getElem?_getD, List.getD_eq_getElem?_getD, List.getElem?_drop]

theorem ipVersion_drop (frame : Bytes) (ip : Nat) :
    ipVersion (frame.drop ip) = byteAt frame ip >>> 4 := by
  have hlt : byteAt frame ip < 256 := UInt8.toNat_lt _
  rw [ipVersion, byteAt_drop, Nat.add_zero, Nat.and_two_pow_sub_one_eq_mod _ 4]
  rw [Nat.shiftRight_eq_div_pow]
  omega

theorem fixedAt_drop {n : Nat} {frame : Bytes} {ip i : Nat} (h : ip + i + n ≤ frame.length) :
    (fixedAt n (frame.drop ip) i).1 = slice frame (ip + i) (ip + i + n) := by
  rw [fixedAt_eq_slice, slice_drop, Nat.add_assoc]
  rw [List.length_drop]
  omega

theorem le_payloadStop (ip : Bytes) {start stop : Nat} (h : start + 8 ≤ stop) :
    start + 8 ≤ payloadStop ip start stop := by
  unfold payloadStop
  split
  next hfits => exact Nat.add_le_add_left hfits.1 start
  next => exact h

theorem ipv4Limit_eq {frame : Bytes} {ip : Nat} (hip : ip ≤ frame.length) :
    ipv4Limit frame ip (ip + ipv4HeaderLength (frame.drop ip)) = ip + ipv4Stop (frame.drop ip) := by
  rw [ipv4Limit, ipv4Stop, halfAt_drop, List.length_drop]
  by_cases hfits : ipv4HeaderLength (frame.drop ip) ≤ halfAt frame (ip + 2) ∧
      halfAt frame (ip + 2) ≤ frame.length - ip
  · rw [if_pos hfits, if_pos (by omega)]
  · rw [if_neg hfits, if_neg (by omega)]
    omega

theorem ipv4HeaderAt_of_isIpv4Udp {frame : Bytes} {ip : Nat}
    (h : IsIpv4Udp (frame.drop ip)) :
    Ipv4HeaderAt frame ip (ip + ipv4HeaderLength (frame.drop ip)) (fixedAt 4 (frame.drop ip) 12)
      (fixedAt 4 (frame.drop ip) 16) := by
  obtain ⟨hroom, hversion, hmin, -, hproto⟩ := h
  have hlen : ipv4HeaderLength (frame.drop ip) = (byteAt frame ip &&& 0x0F) * 4 := by
    rw [ipv4HeaderLength, byteAt_drop, Nat.add_zero]
  rw [List.length_drop] at hroom
  rw [ipVersion_drop] at hversion
  rw [byteAt_drop] at hproto
  rw [hlen] at hmin ⊢
  have hfield : ∀ i, i + 4 ≤ 20 →
      (fixedAt 4 (frame.drop ip) i).1 = slice frame (ip + i) (ip + i + 4) := by
    intro i hi
    exact fixedAt_drop (by omega)
  exact ⟨hversion, hmin, rfl, hproto, (hfield 12 (by decide)).symm,
    (hfield 16 (by decide)).symm⟩

theorem ipv6HeaderAt_of_chain {frame : Bytes} {ip start : Nat} {headers : List (Nat × Nat)}
    (hroom : 40 ≤ (frame.drop ip).length) (hversion : ipVersion (frame.drop ip) = 6)
    (hchain : ExtChain (frame.drop ip) (byteAt (frame.drop ip) 6) 40 headers protoUdp start)
    (hhops : headers.length ≤ maxIpv6ExtHeaders) :
    Ipv6HeaderAt frame ip (ip + start) (fixedAt 16 (frame.drop ip) 8)
      (fixedAt 16 (frame.drop ip) 24) := by
  have hstop := hchain.le_stop
  rw [List.length_drop] at hroom
  rw [ipVersion_drop] at hversion
  rw [byteAt_drop] at hchain
  have hfield : ∀ i, i + 16 ≤ 40 →
      (fixedAt 16 (frame.drop ip) i).1 = slice frame (ip + i) (ip + i + 16) := by
    intro i hi
    exact fixedAt_drop (by omega)
  refine ⟨hversion, by omega, ⟨headers, ?_, hhops⟩, (hfield 8 (by decide)).symm,
    (hfield 24 (by decide)).symm⟩
  rwa [Nat.add_sub_cancel_left]

/-- A UDP header that is announced has an IP header in front of it. -/
theorem UdpHeaderAt.ipHeaderBefore {ethertype start ip : Nat} {frame : Bytes}
    (h : UdpHeaderAt ethertype (frame.drop ip) start) (hip : ip ≤ frame.length) :
    IpHeaderBefore frame (ip + start) (endpoints ethertype (frame.drop ip)).1
      (endpoints ethertype (frame.drop ip)).2 (ip + segmentStop ethertype (frame.drop ip)) := by
  rcases h with ⟨rfl, hudp, rfl⟩ | ⟨rfl, hroom, hversion, headers, hchain, hhops⟩
  · rw [segmentStop, if_pos rfl, ← ipv4Limit_eq hip]
    exact .v4 (ipv4HeaderAt_of_isIpv4Udp hudp)
  · have hwhole : ip + (frame.drop ip).length = frame.length := by
      rw [List.length_drop]
      omega
    rw [segmentStop, if_neg (by decide), hwhole]
    exact .v6 (ipv6HeaderAt_of_chain hroom hversion hchain hhops)

/-- Whatever the frame, `decapsulate_udp` returns; a datagram that it returns lies in the frame
behind an IP header that announces it, and is as long as its length field says where that field
makes sense. -/
theorem decapsulateUdp_sound (lib : IpAddressModule) (linkType : Int) (frame : Bytes) :
    ∃ result, decapsulateUdp lib linkType frame = .ok result ∧
      ∀ udp, result = some udp → ∃ k n source destination limit,
        IpHeaderBefore frame k source destination limit ∧
        udp.srcIp = lib.text source ∧ udp.dstIp = lib.text destination ∧
        udp.srcPort = BigEndian.decode (slice frame k (k + 2)) ∧
        udp.dstPort = BigEndian.decode (slice frame (k + 2) (k + 4)) ∧
        k + 8 + n ≤ frame.length ∧ udp.payload.buffer = frame ∧ udp.payload.start = k + 8 ∧
        udp.payload.toList = slice frame (k + 8) (k + 8 + n) ∧
        (8 ≤ halfAt frame (k + 4) → k + halfAt frame (k + 4) ≤ limit →
          n = halfAt frame (k + 4) - 8) := by
  obtain ⟨result, hresult⟩ := exists_decapsulateUdp lib linkType frame
  refine ⟨result, hresult, ?_⟩
  rintro udp rfl
  obtain ⟨ethertype, ip, start, hlink, hheader, hroom, hudp⟩ :=
    decapsulateUdp_eq_some_iff_headerAt.mp hresult
  obtain ⟨hbuffer, hstart, hstop⟩ := payload_of_decapsulateUdp hresult hlink hheader
  have hip : ip ≤ frame.length := linkLayer_le hlink
  have hlimit := segmentStop_le hheader
  rw [List.length_drop] at hlimit
  have hend := payloadStop_le (frame.drop ip) start (segmentStop ethertype (frame.drop ip))
  have hbegin := le_payloadStop (frame.drop ip) hroom
  refine ⟨ip + start, payloadStop (frame.drop ip) start (segmentStop ethertype (frame.drop ip)) -
    (start + 8), _, _, _, hheader.ipHeaderBefore hip, ?_⟩
  subst hudp
  refine ⟨rfl, rfl, rfl, rfl, by omega, hbuffer, hstart, ?_, ?_⟩
  · rw [MemoryView.toList, hbuffer, hstart, hstop]
    congr 1
    omega
  · intro hmin hfits
    have hfield : halfAt (frame.drop ip) (start + 4) = halfAt frame (ip + start + 4) := by
      rw [halfAt_drop, Nat.add_assoc]
    rw [payloadStop, hfield, if_pos ⟨hmin, by omega⟩]
    omega

end Rtpkit

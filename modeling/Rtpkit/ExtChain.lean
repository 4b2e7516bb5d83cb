import Rtpkit.DecapLayout

namespace Rtpkit

/-- The extension headers of a packet from an offset on, each with its number and its offset, and
the number and the offset that come after them. -/
inductive ExtChain (data : Bytes) : Nat → Nat → List (Nat × Nat) → Nat → Nat → Prop
  | nil (nextHeader offset : Nat) : ExtChain data nextHeader offset [] nextHeader offset
  | cons {nextHeader offset : Nat} {headers : List (Nat × Nat)} {last stop : Nat}
      (hext : nextHeader ∈ ipv6ExtHeaders)
      (hroom : offset + extLength data nextHeader offset ≤ data.length)
      (hrest : ExtChain data (byteAt data offset) (offset + extLength data nextHeader offset)
        headers last stop) :
      ExtChain data nextHeader offset ((nextHeader, offset) :: headers) last stop

/-- The UDP header of an IP packet, with its offset. -/
def UdpHeaderAt (ethertype : Nat) (ip : Bytes) (start : Nat) : Prop :=
  (ethertype = ethertypeIpv4 ∧ IsIpv4Udp ip ∧ start = ipv4HeaderLength ip) ∨
  (ethertype = ethertypeIpv6 ∧ 40 ≤ ip.length ∧ ipVersion ip = 6 ∧ ∃ headers,
    ExtChain ip (byteAt ip 6) 40 headers protoUdp start ∧ headers.length ≤ maxIpv6ExtHeaders)

/-- Where the bytes end that are taken for the segment. -/
def segmentStop (ethertype : Nat) (ip : Bytes) : Nat :=
  if ethertype = ethertypeIpv4 then ipv4Stop ip else ip.length

theorem exists_extChain_of_extWalk {data : Bytes} {hops nextHeader offset last stop : Nat}
    (h : extWalk data hops nextHeader offset = some (last, stop)) :
    ∃ headers, ExtChain data nextHeader offset headers last stop ∧ headers.length ≤ hops := by
  induction hops generalizing nextHeader offset with
  | zero =>
    cases h
    exact ⟨[], .nil _ _, Nat.le_refl _⟩
  | succ hops ih =>
    rw [extWalk] at h
    split at h
    next =>
      cases h
      exact ⟨[], .nil _ _, Nat.zero_le _⟩
    next hext =>
    split at h
    next => cases h
    next hroom =>
      obtain ⟨headers, hchain, hlen⟩ := ih h
      exact ⟨_, .cons (not_not.mp hext) (Nat.le_of_not_lt hroom) hchain, Nat.succ_le_succ hlen⟩

/-- A chain that ends in front of another protocol is walked over to its end. -/
theorem ExtChain.extWalk_eq {data : Bytes} {nextHeader offset last stop : Nat}
    {headers : List (Nat × Nat)} (h : ExtChain data nextHeader offset headers last stop)
    (hlast : last ∉ ipv6ExtHeaders) {hops : Nat} (hlen : headers.length ≤ hops) :
    extWalk data hops nextHeader offset = some (last, stop) := by
  induction h generalizing hops with
  | nil nextHeader offset =>
    cases hops with
    | zero => rfl
    | succ hops => rw [extWalk, if_pos hlast]
  | cons hext hroom hrest ih =>
    rw [List.length_cons] at hlen
    obtain ⟨hops, rfl⟩ : ∃ rest, hops = rest + 1 := ⟨hops - 1, by omega⟩
    rw [extWalk, if_neg (not_not.mpr hext), if_neg (Nat.not_lt.mpr hroom), ih hlast (by omega)]

theorem ipv4Segment_eq_some_iff {ip : Bytes} {start stop : Nat} :
    ipv4Segment ip = some (start, stop) ↔
      (IsIpv4Udp ip ∧ start = ipv4HeaderLength ip) ∧ stop = ipv4Stop ip := by
  rw [ipv4Segment]
  by_cases hudp : IsIpv4Udp ip
  · rw [if_pos hudp]
    constructor
    · intro h
      cases h
      exact ⟨⟨hudp, rfl⟩, rfl⟩
    · rintro ⟨⟨-, rfl⟩, rfl⟩
      rfl
  · rw [if_neg hudp]
    constructor
    · intro h
      cases h
    · exact fun h => absurd h.1.1 hudp

theorem ipv6Segment_eq_some_iff {ip : Bytes} {start stop : Nat} :
    ipv6Segment ip = some (start, stop) ↔
      (40 ≤ ip.length ∧ ipVersion ip = 6 ∧ ∃ headers,
        ExtChain ip (byteAt ip 6) 40 headers protoUdp start ∧
          headers.length ≤ maxIpv6ExtHeaders) ∧ stop = ip.length := by
  rw [ipv6Segment]
  constructor
  · intro h
    split at h
    next hfixed =>
      obtain ⟨⟨last, offset⟩, hwalk, hproto⟩ := Option.bind_eq_some_iff.mp h
      split at hproto
      next hudp =>
        cases hproto
        cases hudp
        exact ⟨⟨hfixed.1, hfixed.2, exists_extChain_of_extWalk hwalk⟩, rfl⟩
      next => cases hproto
    next => cases h
  · rintro ⟨⟨hlen, hversion, headers, hchain, hle⟩, rfl⟩
    rw [if_pos ⟨hlen, hversion⟩, hchain.extWalk_eq (by decide) hle, Option.bind_some, if_pos rfl]

theorem ipSegment_eq_some_iff {ethertype start stop : Nat} {ip : Bytes} :
    ipSegment ethertype ip = some (start, stop) ↔
      UdpHeaderAt ethertype ip start ∧ stop = segmentStop ethertype ip := by
  have hdistinct : ethertypeIpv4 ≠ ethertypeIpv6 := by decide
  rw [ipSegment, segmentStop, UdpHeaderAt]
  by_cases hv4 : ethertype = ethertypeIpv4
  · rw [if_pos hv4, if_pos hv4, ipv4Segment_eq_some_iff]
    simp only [hv4, hdistinct, true_and, false_and, or_false]
  rw [if_neg hv4, if_neg hv4]
  by_cases hv6 : ethertype = ethertypeIpv6
  · rw [if_pos hv6, ipv6Segment_eq_some_iff]
    simp only [hv6, hdistinct.symm, true_and, false_and, false_or]
  · rw [if_neg hv6]
    simp only [hv4, hv6, false_and, or_self, reduceCtorEq]

section Result

variable {lib : IpAddressModule} {linkType : Int} {frame : Bytes}

/-- A datagram is found where a UDP header is announced and complete. -/
theorem decapsulateUdp_eq_some_iff_headerAt {udp : DecapsulatedUdp} :
    decapsulateUdp lib linkType frame = .ok (some udp) ↔ ∃ ethertype ipStart start,
      linkLayer linkType frame = some (ethertype, ipStart) ∧
      UdpHeaderAt ethertype (frame.drop ipStart) start ∧
      start + 8 ≤ segmentStop ethertype (frame.drop ipStart) ∧
      udp = datagramAt lib (endpoints ethertype (frame.drop ipStart)) frame (ipStart + start)
        (ipStart + segmentStop ethertype (frame.drop ipStart)) := by
  rw [decapsulateUdp_eq_some_iff]
  constructor
  · rintro ⟨ethertype, ipStart, start, stop, hlink, hsegment, hroom, rfl⟩
    obtain ⟨hheader, rfl⟩ := ipSegment_eq_some_iff.mp hsegment
    exact ⟨ethertype, ipStart, start, hlink, hheader, hroom, rfl⟩
  · rintro ⟨ethertype, ipStart, start, hlink, hheader, hroom, rfl⟩
    exact ⟨ethertype, ipStart, start, _, hlink, ipSegment_eq_some_iff.mpr ⟨hheader, rfl⟩, hroom,
      rfl⟩

theorem decapsulateUdp_eq_none_iff_headerAt :
    decapsulateUdp lib linkType frame = .ok none ↔ ∀ ethertype ipStart start,
      linkLayer linkType frame = some (ethertype, ipStart) →
      UdpHeaderAt ethertype (frame.drop ipStart) start →
      segmentStop ethertype (frame.drop ipStart) < start + 8 := by
  rw [decapsulateUdp_eq_none_iff]
  constructor
  · intro h ethertype ipStart start hlink hheader
    exact h ethertype ipStart start _ hlink (ipSegment_eq_some_iff.mpr ⟨hheader, rfl⟩)
  · intro h ethertype ipStart start stop hlink hsegment
    obtain ⟨hheader, rfl⟩ := ipSegment_eq_some_iff.mp hsegment
    exact h ethertype ipStart start hlink hheader

end Result

end Rtpkit

import Rtpkit.DeclaredLength
import Rtpkit.TruncatedPacket

namespace Rtpkit

open Outcome Chunk

section Walks

variable {data : Bytes} {k : Nat}

theorem filter_le_none {α : Type} {found : Option (α × Nat)}
    (h : ∀ pos, found = some pos → k < pos.2) : (found.filter fun pos => pos.2 ≤ k) = none := by
  rw [Option.filter_eq_none_iff]
  intro pos hpos
  have hlt := h pos hpos
  rw [decide_eq_true_eq]
  omega

theorem filter_le_some {α : Type} {found : α × Nat} (h : found.2 ≤ k) :
    ((some found).filter fun pos => pos.2 ≤ k) = some found := by
  rw [Option.filter_some, if_pos (by simpa using h)]

theorem le_vlanWalk {tags ethertype offset : Nat} {found : Nat × Nat}
    (h : vlanWalk data tags ethertype offset = some found) : offset ≤ found.2 := by
  induction tags generalizing ethertype offset with
  | zero =>
    cases h
    exact Nat.le_refl _
  | succ tags ih =>
    rw [vlanWalk] at h
    split at h
    next =>
      cases h
      exact Nat.le_refl _
    split at h
    next => cases h
    next =>
      have hrest := ih h
      omega

/-- A walk over the tags of a cut frame is the walk over the frame, or is cut off. -/
theorem vlanWalk_take {tags ethertype offset : Nat} (h : offset ≤ k) :
    vlanWalk (data.take k) tags ethertype offset =
      (vlanWalk data tags ethertype offset).filter fun found => found.2 ≤ k := by
  induction tags generalizing ethertype offset with
  | zero =>
    rw [vlanWalk, vlanWalk]
    exact (filter_le_some h).symm
  | succ tags ih =>
    rw [vlanWalk, vlanWalk, List.length_take]
    split
    next => exact (filter_le_some h).symm
    by_cases hroom : data.length < offset + 4
    · rw [if_pos (by omega), if_pos hroom]
      rfl
    rw [if_neg hroom]
    by_cases hcut : k < offset + 4
    · rw [if_pos (by omega)]
      refine (filter_le_none fun found hfound => ?_).symm
      have hle := le_vlanWalk hfound
      omega
    · rw [if_neg (by omega), halfAt_take (by omega), ih (by omega)]

theorem extLength_take {nextHeader offset : Nat} (h : offset + 2 ≤ k) :
    extLength (data.take k) nextHeader offset = extLength data nextHeader offset := by
  rw [extLength, extLength, byteAt_take (by omega)]

theorem le_extWalk {hops nextHeader offset : Nat} {walked : Nat × Nat}
    (h : extWalk data hops nextHeader offset = some walked) : offset ≤ walked.2 := by
  induction hops generalizing nextHeader offset with
  | zero =>
    cases h
    exact Nat.le_refl _
  | succ hops ih =>
    rw [extWalk] at h
    split at h
    next =>
      cases h
      exact Nat.le_refl _
    split at h
    next => cases h
    next =>
      have hrest := ih h
      omega

theorem extWalk_take {hops nextHeader offset : Nat} (h : offset ≤ k) :
    extWalk (data.take k) hops nextHeader offset =
      (extWalk data hops nextHeader offset).filter fun walked => walked.2 ≤ k := by
  induction hops generalizing nextHeader offset with
  | zero =>
    rw [extWalk, extWalk]
    exact (filter_le_some h).symm
  | succ hops ih =>
    have hge := extLength_ge (data.take k) nextHeader offset
    have hge' := extLength_ge data nextHeader offset
    rw [extWalk, extWalk, List.length_take]
    split
    next => exact (filter_le_some h).symm
    by_cases hfixed : k < offset + 8
    · rw [if_pos (by omega)]
      split
      next => rfl
      next =>
        refine (filter_le_none fun walked hwalked => ?_).symm
        have hle := le_extWalk hwalked
        omega
    rw [extLength_take (by omega), byteAt_take (by omega)]
    by_cases hroom : data.length < offset + extLength data nextHeader offset
    · rw [if_pos (by omega), if_pos hroom]
      rfl
    rw [if_neg hroom]
    by_cases hcut : k < offset + extLength data nextHeader offset
    · rw [if_pos (by omega)]
      refine (filter_le_none fun walked hwalked => ?_).symm
      have hle := le_extWalk hwalked
      omega
    · rw [if_neg (by omega), ih (by omega)]

end Walks

section Layers

variable {data : Bytes} {k : Nat}

theorem ipVersion_take (h : 0 < k) : ipVersion (data.take k) = ipVersion data := by
  rw [ipVersion, ipVersion, byteAt_take h]

theorem linkLayer_take {linkType : Int} (h : 0 < k) :
    linkLayer linkType (data.take k) =
      (linkLayer linkType data).filter fun found => found.2 ≤ k := by
  unfold linkLayer
  rw [List.length_take]
  split
  next =>
    by_cases hshort : data.length < 14
    · rw [if_pos (by omega), if_pos hshort]
      rfl
    rw [if_neg hshort]
    by_cases hcut : k < 14
    · rw [if_pos (by omega)]
      refine (filter_le_none fun found hfound => ?_).symm
      have hle := le_vlanWalk hfound
      omega
    · rw [if_neg (by omega), halfAt_take (by omega), vlanWalk_take (by omega)]
  split
  next =>
    by_cases hshort : data.length < 16
    · rw [if_pos (by omega), if_pos hshort]
      rfl
    rw [if_neg hshort]
    by_cases hcut : k < 16
    · rw [if_pos (by omega)]
      refine (filter_le_none fun found hfound => ?_).symm
      cases hfound
      exact hcut
    · rw [if_neg (by omega), halfAt_take (by omega)]
      exact (filter_le_some (Nat.le_of_not_lt hcut)).symm
  split
  next =>
    by_cases hshort : data.length < 1
    · rw [if_pos (by omega), if_pos hshort]
      rfl
    · rw [if_neg (by omega), if_neg hshort, ipVersion_take h]
      cases ethertypeOfVersion (ipVersion data) with
      | none => rfl
      | some ethertype => exact (filter_le_some (Nat.zero_le k)).symm
  next => rfl

theorem fixedAt_take {n i : Nat} (hk : i + n ≤ k) (hlen : i + n ≤ data.length) :
    fixedAt n (data.take k) i = fixedAt n data i := by
  apply Subtype.ext
  have hcut : i + n ≤ (data.take k).length := by
    rw [List.length_take]
    omega
  rw [fixedAt_eq_slice hcut, fixedAt_eq_slice hlen, slice_take data i hk]

theorem ipv4HeaderLength_take (h : 0 < k) :
    ipv4HeaderLength (data.take k) = ipv4HeaderLength data := by
  rw [ipv4HeaderLength, ipv4HeaderLength, byteAt_take h]

theorem isIpv4Udp_take :
    IsIpv4Udp (data.take k) ↔ IsIpv4Udp data ∧ ipv4HeaderLength data ≤ k := by
  unfold IsIpv4Udp
  rw [List.length_take]
  by_cases hfixed : k < 20
  · constructor
    · rintro ⟨hlen, -⟩
      omega
    · rintro ⟨⟨-, -, hge, -⟩, hle⟩
      omega
  · rw [ipVersion_take (by omega), ipv4HeaderLength_take (by omega), byteAt_take (by omega)]
    constructor
    · rintro ⟨hlen, hversion, hge, hle, hproto⟩
      exact ⟨⟨by omega, hversion, hge, by omega, hproto⟩, by omega⟩
    · rintro ⟨⟨hlen, hversion, hge, hle, hproto⟩, hk⟩
      exact ⟨by omega, hversion, hge, by omega, hproto⟩

theorem ipv4Stop_take (hk : 20 ≤ k) : ipv4Stop (data.take k) = min (ipv4Stop data) k := by
  unfold ipv4Stop
  rw [List.length_take, ipv4HeaderLength_take (by omega), halfAt_take (by omega)]
  split
  next =>
    split
    next => omega
    next => omega
  next =>
    split
    next => omega
    next => omega

theorem ipv4Segment_take : ipv4Segment (data.take k) =
    ((ipv4Segment data).filter fun segment => segment.1 ≤ k).map
      fun segment => (segment.1, min segment.2 k) := by
  unfold ipv4Segment
  by_cases hudp : IsIpv4Udp data
  · rw [if_pos hudp, Option.filter_some]
    have hmin := hudp.2.2.1
    by_cases hk : ipv4HeaderLength data ≤ k
    · rw [if_pos (isIpv4Udp_take.mpr ⟨hudp, hk⟩), if_pos (by simpa using hk),
        ipv4HeaderLength_take (by omega), ipv4Stop_take (by omega)]
      rfl
    · rw [if_neg fun h => hk (isIpv4Udp_take.mp h).2, if_neg (by simpa using hk)]
      rfl
  · rw [if_neg fun h => hudp (isIpv4Udp_take.mp h).1, if_neg hudp]
    rfl

/-- The headers in front of a segment are at least as long as the fixed ones. -/
theorem le_ipv4Segment {segment : Nat × Nat} (h : ipv4Segment data = some segment) :
    20 ≤ data.length ∧ 20 ≤ segment.1 := by
  unfold ipv4Segment at h
  split at h
  next hudp =>
    cases h
    exact ⟨hudp.1, hudp.2.2.1⟩
  next => cases h

theorem le_ipv6Segment {segment : Nat × Nat} (h : ipv6Segment data = some segment) :
    40 ≤ data.length ∧ 40 ≤ segment.1 := by
  unfold ipv6Segment at h
  split at h
  next hfixed =>
    obtain ⟨walked, hwalked, hproto⟩ := Option.bind_eq_some_iff.mp h
    split at hproto
    next =>
      cases hproto
      exact ⟨hfixed.1, le_extWalk hwalked⟩
    next => cases hproto
  next => cases h

theorem ipv6Segment_take : ipv6Segment (data.take k) =
    ((ipv6Segment data).filter fun segment => segment.1 ≤ k).map
      fun segment => (segment.1, min segment.2 k) := by
  by_cases hcut : k < 40
  · have hnone : ((ipv6Segment data).filter fun segment => segment.1 ≤ k) = none := by
      rw [Option.filter_eq_none_iff]
      intro segment hsegment
      have hge := (le_ipv6Segment hsegment).2
      rw [decide_eq_true_eq]
      omega
    rw [hnone, ipv6Segment, if_neg]
    · rfl
    · rw [List.length_take]
      omega
  unfold ipv6Segment
  rw [List.length_take]
  by_cases hfixed : 40 ≤ data.length ∧ ipVersion data = 6
  · rw [if_pos hfixed, if_pos ⟨by omega, (ipVersion_take (by omega)).trans hfixed.2⟩,
      byteAt_take (by omega), extWalk_take (by omega)]
    cases extWalk data maxIpv6ExtHeaders (byteAt data 6) 40 with
    | none => rfl
    | some walked =>
      obtain ⟨nextHeader, offset⟩ := walked
      rw [Option.filter_some, Option.bind_some]
      dsimp only
      by_cases hproto : nextHeader = protoUdp
      · rw [if_pos hproto, Option.filter_some]
        by_cases hk : offset ≤ k
        · rw [if_pos (by simpa using hk), if_pos (by simpa using hk), Option.bind_some,
            if_pos hproto, Option.map_some, Nat.min_comm]
        · rw [if_neg (by simpa using hk), if_neg (by simpa using hk)]
          rfl
      · rw [if_neg hproto]
        split
        next => rw [Option.bind_some, if_neg hproto]; rfl
        next => rfl
  · rw [if_neg hfixed, if_neg]
    · rfl
    · rintro ⟨hlen, hversion⟩
      rw [ipVersion_take (by omega)] at hversion
      exact hfixed ⟨by omega, hversion⟩

/-- The segment of a cut packet is the segment up to the cut. -/
theorem ipSegment_take (ethertype : Nat) :
    ipSegment ethertype (data.take k) =
      ((ipSegment ethertype data).filter fun segment => segment.1 ≤ k).map
        fun segment => (segment.1, min segment.2 k) := by
  unfold ipSegment
  split
  next => exact ipv4Segment_take
  split
  next => exact ipv6Segment_take
  next => rfl

theorem endpoints_take {ethertype : Nat} {segment : Nat × Nat}
    (h : ipSegment ethertype data = some segment) (hk : segment.1 ≤ k) :
    endpoints ethertype (data.take k) = endpoints ethertype data := by
  unfold ipSegment at h
  unfold endpoints
  split at h
  next hv4 =>
    obtain ⟨hlen, hge⟩ := le_ipv4Segment h
    rw [if_pos hv4, if_pos hv4, fixedAt_take (by omega) (by omega),
      fixedAt_take (by omega) (by omega)]
  next hv4 =>
    split at h
    next hv6 =>
      obtain ⟨hlen, hge⟩ := le_ipv6Segment h
      rw [if_neg hv4, if_neg hv4, fixedAt_take (by omega) (by omega),
        fixedAt_take (by omega) (by omega)]
    next => cases h

/-- Where a segment is cut, a length that goes beyond the cut makes no sense any more. -/
theorem udpStop_cut {start stop : Nat} (hroom : start + 8 ≤ min stop k) (hstop : stop ≤ data.length) :
    udpStop (slice (data.take k) start (min stop k)) =
      min (udpStop (slice data start stop)) (k - start) := by
  have hlen : (slice data start stop).length = stop - start := by
    rw [length_slice]
    omega
  have hcutLen : (slice (data.take k) start (min stop k)).length = min stop k - start := by
    rw [length_slice, List.length_take]
    omega
  have hfield : halfAt (slice (data.take k) start (min stop k)) 4 =
      halfAt (slice data start stop) 4 := by
    rw [halfAt_slice (by omega), halfAt_slice (by omega), halfAt_take (by omega)]
  unfold udpStop
  rw [hlen, hcutLen, hfield]
  split
  next =>
    split
    next => omega
    next => omega
  next =>
    split
    next => omega
    next => omega

end Layers

/-- The datagram is the front of another one. -/
structure DecapsulatedUdp.CutShort (cut udp : DecapsulatedUdp) (k : Nat) : Prop where
  srcIp : cut.srcIp = udp.srcIp
  dstIp : cut.dstIp = udp.dstIp
  srcPort : cut.srcPort = udp.srcPort
  dstPort : cut.dstPort = udp.dstPort
  start : cut.payload.start = udp.payload.start
  payload : cut.payload.toList = udp.payload.toList.take (k - udp.payload.start)

section Datagram

variable {lib : IpAddressModule} {ends : IpAddress × IpAddress} {frame : Bytes}
  {start stop k : Nat}

theorem view_datagramAt (lib : IpAddressModule) (ends : IpAddress × IpAddress)
    (hroom : start + 8 ≤ stop) (hstop : stop ≤ frame.length) :
    (datagramAt lib ends frame start stop).payload.start = start + 8 ∧
      (datagramAt lib ends frame start stop).payload.toList =
        slice frame (start + 8) (start + udpStop (slice frame start stop)) := by
  obtain ⟨hbuffer, hfirst, hlast⟩ := payload_datagramAt lib ends hroom hstop
  exact ⟨hfirst, by rw [MemoryView.toList, hbuffer, hfirst, hlast]⟩

theorem cutShort_datagramAt (hroom : start + 8 ≤ min stop k) (hstop : stop ≤ frame.length) :
    (datagramAt lib ends (frame.take k) start (min stop k)).CutShort
      (datagramAt lib ends frame start stop) k := by
  have hcutLen : min stop k ≤ (frame.take k).length := by
    rw [List.length_take]
    omega
  obtain ⟨hstart, hpayload⟩ :=
    view_datagramAt lib ends (show start + 8 ≤ stop by omega) hstop
  obtain ⟨hcutStart, hcutPayload⟩ := view_datagramAt lib ends hroom hcutLen
  refine ⟨rfl, rfl, halfAt_take (by omega), halfAt_take (by omega),
    hcutStart.trans hstart.symm, ?_⟩
  have hudp := udpStop_cut hroom hstop
  have hlen : (slice frame start stop).length = stop - start := by
    rw [length_slice]
    omega
  have hle := udpStop_le (slice frame start stop)
  rw [hcutPayload, hpayload, hstart, hudp, slice_take _ _ (by omega)]
  simp only [slice]
  rw [List.take_drop, List.take_take]
  congr 2
  omega

end Datagram

section Cut

variable {linkType : Int} {frame : Bytes} {k ethertype ipStart start stop : Nat}

/-- What is found in a cut frame is found in the frame, at the same place. -/
theorem segment_of_take (hk : 0 < k)
    (hlink : linkLayer linkType (frame.take k) = some (ethertype, ipStart))
    (hsegment : ipSegment ethertype ((frame.take k).drop ipStart) = some (start, stop)) :
    linkLayer linkType frame = some (ethertype, ipStart) ∧
      ∃ whole, ipSegment ethertype (frame.drop ipStart) = some (start, whole) ∧
        stop = min whole (k - ipStart) := by
  rw [linkLayer_take hk, Option.filter_eq_some_iff] at hlink
  rw [List.drop_take, ipSegment_take, Option.map_eq_some_iff] at hsegment
  obtain ⟨segment, hfound, hcut⟩ := hsegment
  obtain ⟨hwhole, -⟩ := Option.filter_eq_some_iff.mp hfound
  cases hcut
  exact ⟨hlink.1, segment.2, hwhole, rfl⟩

theorem segment_take (hk : 0 < k)
    (hlink : linkLayer linkType frame = some (ethertype, ipStart))
    (hsegment : ipSegment ethertype (frame.drop ipStart) = some (start, stop))
    (hroom : ipStart + start ≤ k) :
    linkLayer linkType (frame.take k) = some (ethertype, ipStart) ∧
      ipSegment ethertype ((frame.take k).drop ipStart) = some (start, min stop (k - ipStart)) := by
  constructor
  · rw [linkLayer_take hk, hlink]
    exact filter_le_some (show ipStart ≤ k by omega)
  · rw [List.drop_take, ipSegment_take, hsegment, Option.filter_some, if_pos]
    · rfl
    · rw [decide_eq_true_eq]
      omega

theorem decapsulateUdp_nil (lib : IpAddressModule) (linkType : Int) :
    decapsulateUdp lib linkType [] = .ok none := by
  rw [decapsulateUdp_eq_none_iff]
  intro ethertype ipStart start stop _ hsegment
  have hbounds := (ipSegment_bounds hsegment).2
  rw [List.drop_nil] at hbounds
  exact Nat.lt_of_le_of_lt hbounds (Nat.succ_pos _)

theorem decapsulateUdp_take_of_none {lib : IpAddressModule}
    (h : decapsulateUdp lib linkType frame = .ok none) :
    decapsulateUdp lib linkType (frame.take k) = .ok none := by
  rcases Nat.eq_zero_or_pos k with rfl | hk
  · exact decapsulateUdp_nil lib linkType
  rw [decapsulateUdp_eq_none_iff] at h ⊢
  intro ethertype ipStart start stop hlink hsegment
  obtain ⟨hwholeLink, whole, hwhole, rfl⟩ := segment_of_take hk hlink hsegment
  have hshort := h ethertype ipStart start whole hwholeLink hwhole
  omega

/-- Where a datagram is found, and where its payload starts. -/
theorem exists_segment {lib : IpAddressModule} {udp : DecapsulatedUdp}
    (h : decapsulateUdp lib linkType frame = .ok (some udp)) : ∃ ethertype ipStart start stop,
      linkLayer linkType frame = some (ethertype, ipStart) ∧
      ipSegment ethertype (frame.drop ipStart) = some (start, stop) ∧ start + 8 ≤ stop ∧
      ipStart + stop ≤ frame.length ∧ udp.payload.start = ipStart + start + 8 ∧
      udp = datagramAt lib (endpoints ethertype (frame.drop ipStart)) frame (ipStart + start)
        (ipStart + stop) := by
  obtain ⟨ethertype, ipStart, start, stop, hlink, hsegment, hroom, rfl⟩ :=
    decapsulateUdp_eq_some_iff.mp h
  have hip := linkLayer_le hlink
  have hstop := (ipSegment_bounds hsegment).2
  rw [List.length_drop] at hstop
  have hfits : ipStart + stop ≤ frame.length := by omega
  have hstart := (view_datagramAt lib (endpoints ethertype (frame.drop ipStart))
    (show ipStart + start + 8 ≤ ipStart + stop by omega) hfits).1
  exact ⟨ethertype, ipStart, start, stop, hlink, hsegment, hroom, hfits, hstart, rfl⟩

theorem decapsulateUdp_take_of_lt {lib : IpAddressModule} {udp : DecapsulatedUdp}
    (h : decapsulateUdp lib linkType frame = .ok (some udp)) (hcut : k < udp.payload.start) :
    decapsulateUdp lib linkType (frame.take k) = .ok none := by
  rcases Nat.eq_zero_or_pos k with rfl | hk
  · exact decapsulateUdp_nil lib linkType
  obtain ⟨ethertype, ipStart, start, stop, hlink, hsegment, hroom, -, hstart, -⟩ := exists_segment h
  rw [decapsulateUdp_eq_none_iff]
  intro ethertype' ipStart' start' stop' hlink' hsegment'
  obtain ⟨hwholeLink, whole, hwhole, rfl⟩ := segment_of_take hk hlink' hsegment'
  cases hlink.symm.trans hwholeLink
  cases hsegment.symm.trans hwhole
  omega

theorem exists_cutShort {lib : IpAddressModule} {udp : DecapsulatedUdp}
    (h : decapsulateUdp lib linkType frame = .ok (some udp)) (hcut : udp.payload.start ≤ k) :
    ∃ cut, decapsulateUdp lib linkType (frame.take k) = .ok (some cut) ∧ cut.CutShort udp k := by
  obtain ⟨ethertype, ipStart, start, stop, hlink, hsegment, hroom, hfits, hstart, rfl⟩ :=
    exists_segment h
  obtain ⟨hlink', hsegment'⟩ := segment_take (show 0 < k by omega) hlink hsegment (by omega)
  have hends : endpoints ethertype ((frame.take k).drop ipStart) =
      endpoints ethertype (frame.drop ipStart) := by
    rw [List.drop_take, endpoints_take hsegment (by dsimp only; omega)]
  have hmin : ipStart + min stop (k - ipStart) = min (ipStart + stop) k := by omega
  refine ⟨_, decapsulateUdp_of_segment hlink' hsegment' (by omega), ?_⟩
  rw [hends, hmin]
  exact cutShort_datagramAt (by omega) hfits

end Cut

/-- A frame that is captured up to some length only gives the same datagram up to that length, and
nothing where not even the headers are there; what is not a datagram does not become one. -/
theorem decapsulateUdp_take (lib : IpAddressModule) (linkType : Int) (frame : Bytes) (k : Nat) :
    (decapsulateUdp lib linkType frame = .ok none →
      decapsulateUdp lib linkType (frame.take k) = .ok none) ∧
    ∀ udp, decapsulateUdp lib linkType frame = .ok (some udp) →
      (k < udp.payload.start → decapsulateUdp lib linkType (frame.take k) = .ok none) ∧
      (udp.payload.start ≤ k →
        ∃ cut, decapsulateUdp lib linkType (frame.take k) = .ok (some cut) ∧ cut.CutShort udp k) :=
  ⟨decapsulateUdp_take_of_none, fun _ hudp =>
    ⟨decapsulateUdp_take_of_lt hudp, exists_cutShort hudp⟩⟩

end Rtpkit

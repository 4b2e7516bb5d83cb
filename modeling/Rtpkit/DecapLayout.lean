import Rtpkit.Decap
import Mathlib.Data.List.TakeDrop

namespace Rtpkit

open Outcome Chunk

def fixedAt (n : Nat) (data : Bytes) (i : Nat) : FixedBytes n :=
  ⟨(data.drop i).takeD n 0, List.takeD_length n _ 0⟩

def ipVersion (data : Bytes) : Nat := byteAt data 0 >>> 4 &&& 0x0F

def ipv4HeaderLength (data : Bytes) : Nat := (byteAt data 0 &&& 0x0F) * 4

def extLength (data : Bytes) (nextHeader offset : Nat) : Nat :=
  if nextHeader = ipv6Fragment then 8 else (byteAt data (offset + 1) + 1) * 8

/-- The next header and the offset behind the extension headers that are walked over. -/
def extWalk (data : Bytes) : Nat → Nat → Nat → Option (Nat × Nat)
  | 0, nextHeader, offset => some (nextHeader, offset)
  | hops + 1, nextHeader, offset =>
    if nextHeader ∉ ipv6ExtHeaders then some (nextHeader, offset)
    else if data.length < offset + extLength data nextHeader offset then none
    else extWalk data hops (byteAt data offset) (offset + extLength data nextHeader offset)

/-- The ethertype and the offset behind the tags that are walked over. -/
def vlanWalk (frame : Bytes) : Nat → Nat → Nat → Option (Nat × Nat)
  | 0, ethertype, offset => some (ethertype, offset)
  | tags + 1, ethertype, offset =>
    if ethertype ≠ ethertypeVlan then some (ethertype, offset)
    else if frame.length < offset + 4 then none
    else vlanWalk frame tags (halfAt frame (offset + 2)) (offset + 4)

def ethertypeOfVersion (version : Nat) : Option Nat :=
  if version = 4 then some ethertypeIpv4 else if version = 6 then some ethertypeIpv6 else none

/-- The ethertype of a frame and the offset of the packet behind its link layer. -/
def linkLayer (linkType : Int) (frame : Bytes) : Option (Nat × Nat) :=
  if linkType = dltEn10mb then
    if frame.length < 14 then none else vlanWalk frame maxVlanTags (halfAt frame 12) 14
  else if linkType = dltLinuxSll then
    if frame.length < 16 then none else some (halfAt frame 14, 16)
  else if linkType = dltRaw then
    if frame.length < 1 then none
    else (ethertypeOfVersion (ipVersion frame)).map fun ethertype => (ethertype, 0)
  else none

/-- A UDP datagram in a complete IPv4 header. -/
def IsIpv4Udp (data : Bytes) : Prop :=
  20 ≤ data.length ∧ ipVersion data = 4 ∧ 20 ≤ ipv4HeaderLength data ∧
    ipv4HeaderLength data ≤ data.length ∧ byteAt data 9 = protoUdp

instance (data : Bytes) : Decidable (IsIpv4Udp data) := inferInstanceAs (Decidable (_ ∧ _))

/-- Where the datagram ends: at the total length, unless that makes no sense. -/
def ipv4Stop (data : Bytes) : Nat :=
  if ipv4HeaderLength data ≤ halfAt data 2 ∧ halfAt data 2 ≤ data.length then halfAt data 2
  else data.length

def ipv4Segment (data : Bytes) : Option (Nat × Nat) :=
  if IsIpv4Udp data then some (ipv4HeaderLength data, ipv4Stop data) else none

def ipv6Segment (data : Bytes) : Option (Nat × Nat) :=
  if 40 ≤ data.length ∧ ipVersion data = 6 then
    (extWalk data maxIpv6ExtHeaders (byteAt data 6) 40).bind fun walked =>
      if walked.1 = protoUdp then some (walked.2, data.length) else none
  else none

/-- Where a UDP segment ends: at its length, unless that makes no sense. -/
def udpStop (segment : Bytes) : Nat :=
  if 8 ≤ halfAt segment 4 ∧ halfAt segment 4 ≤ segment.length then halfAt segment 4
  else segment.length

/-- The datagram in a segment of UDP, if its header is there. -/
def datagramOf (lib : IpAddressModule) (source destination : IpAddress)
    (segment : MemoryView UInt8) : Option DecapsulatedUdp :=
  if segment.length < 8 then none
  else some {
    srcIp := lib.text source
    dstIp := lib.text destination
    srcPort := halfAt segment.toList 0
    dstPort := halfAt segment.toList 2
    payload := segment.slice 8 (udpStop segment.toList) }

section Reads

theorem fixedAt_eq_slice {n : Nat} {data : Bytes} {i : Nat} (h : i + n ≤ data.length) :
    (fixedAt n data i).1 = slice data i (i + n) := by
  have hroom : n ≤ (data.drop i).length := by
    rw [List.length_drop]
    omega
  refine (List.takeD_eq_take 0 hroom).trans ?_
  rw [slice, List.drop_take, Nat.add_sub_cancel_left]

theorem fixedAt_of_standsAt {n : Nat} {data : Bytes} {off : Nat} {packed : FixedBytes n}
    (h : StandsAt data off packed.1) : fixedAt n data off = packed := by
  have hle := h.le_length
  have hslice := h.slice_eq
  rw [packed.2] at hle hslice
  exact Subtype.ext ((fixedAt_eq_slice hle).trans hslice)

theorem extLength_ge (data : Bytes) (nextHeader offset : Nat) :
    8 ≤ extLength data nextHeader offset := by
  rw [extLength]
  split
  next => exact Nat.le_refl 8
  next => omega

end Reads

theorem decapUdp_eq (lib : IpAddressModule) (source destination : IpAddress)
    (segment : MemoryView UInt8) :
    decapUdp segment (lib.text source) (lib.text destination) =
      .ok (datagramOf lib source destination segment) := by
  have hlen := segment.length_toList
  rw [decapUdp, datagramOf]
  by_cases hshort : segment.length < 8
  · rw [if_pos hshort, if_pos hshort]
    rfl
  · rw [if_neg hshort, if_neg hshort, unpackFrom_halfAt (by omega), bind_ok,
      unpackFrom_halfAt (by omega), bind_ok, unpackFrom_halfAt (by omega), bind_ok, udpStop, hlen]
    rfl

theorem readExtLen_eq {data : MemoryView UInt8} {nextHeader offset : Nat}
    (h : offset + 2 ≤ data.length) :
    readExtLen data nextHeader offset = .ok (extLength data.toList nextHeader offset) := by
  have hlen := data.length_toList
  rw [readExtLen, extLength, getByte_byteAt (by omega)]
  split
  next => rfl
  next => rfl

theorem walkExtHeaders_eq (data : MemoryView UInt8) (hops nextHeader offset : Nat) :
    walkExtHeaders data hops nextHeader offset =
      .ok (extWalk data.toList hops nextHeader offset) := by
  have hlen := data.length_toList
  induction hops generalizing nextHeader offset with
  | zero => rfl
  | succ hops ih =>
    have hge := extLength_ge data.toList nextHeader offset
    rw [walkExtHeaders, extWalk, hlen]
    by_cases hext : nextHeader ∉ ipv6ExtHeaders
    · rw [if_pos hext, if_pos hext]
      rfl
    rw [if_neg hext, if_neg hext]
    by_cases hshort : data.length < offset + 2
    · rw [if_pos hshort, if_pos (by omega)]
      rfl
    rw [if_neg hshort, getByte_byteAt (by omega), bind_ok, readExtLen_eq (by omega), bind_ok]
    by_cases hcut : data.length < offset + extLength data.toList nextHeader offset
    · rw [if_pos hcut, if_pos hcut]
      rfl
    · rw [if_neg hcut, if_neg hcut, ih]

theorem stripVlanTags_eq (frame : MemoryView UInt8) (tags ethertype offset : Nat) :
    stripVlanTags frame tags ethertype offset =
      .ok (vlanWalk frame.toList tags ethertype offset) := by
  have hlen := frame.length_toList
  induction tags generalizing ethertype offset with
  | zero => rfl
  | succ tags ih =>
    rw [stripVlanTags, vlanWalk, hlen]
    by_cases hvlan : ethertype ≠ ethertypeVlan
    · rw [if_pos hvlan, if_pos hvlan]
      rfl
    rw [if_neg hvlan, if_neg hvlan]
    by_cases hcut : frame.length < offset + 4
    · rw [if_pos hcut, if_pos hcut]
      rfl
    · rw [if_neg hcut, if_neg hcut, unpackFrom_halfAt (by omega), bind_ok, ih]

section Strip

variable (frame : MemoryView UInt8)

theorem stripEthernet_eq :
    stripEthernet frame = .ok ((linkLayer dltEn10mb frame.toList).map
      fun (ethertype, offset) => (ethertype, frame.slice offset frame.length)) := by
  have hlen := frame.length_toList
  rw [stripEthernet, linkLayer, if_pos rfl, hlen]
  by_cases hshort : frame.length < 14
  · rw [if_pos hshort, if_pos hshort]
    rfl
  · rw [if_neg hshort, if_neg hshort, unpackFrom_halfAt (by omega), bind_ok, stripVlanTags_eq]
    rfl

theorem stripSll_eq :
    stripSll frame = .ok ((linkLayer dltLinuxSll frame.toList).map
      fun (ethertype, offset) => (ethertype, frame.slice offset frame.length)) := by
  have hlen := frame.length_toList
  rw [linkLayer, if_neg (by decide), if_pos rfl, stripSll, hlen]
  by_cases hshort : frame.length < 16
  · rw [if_pos hshort, if_pos hshort]
    rfl
  · rw [if_neg hshort, if_neg hshort, unpackFrom_halfAt (by omega)]
    rfl

theorem stripRaw_eq :
    stripRaw frame = .ok ((linkLayer dltRaw frame.toList).map
      fun (ethertype, offset) => (ethertype, frame.slice offset frame.length)) := by
  have hlen := frame.length_toList
  rw [linkLayer, if_neg (by decide), if_neg (by decide), if_pos rfl, stripRaw, hlen]
  by_cases hshort : frame.length < 1
  · rw [if_pos hshort, if_pos hshort]
    rfl
  rw [if_neg hshort, if_neg hshort, getByte_byteAt (by omega), bind_ok, ethertypeOfVersion,
    ipVersion]
  dsimp only
  by_cases hv4 : byteAt frame.toList 0 >>> 4 &&& 0x0F = 4
  · rw [if_pos hv4, if_pos hv4, Option.map_some, Option.map_some,
      MemoryView.slice_zero_length_self]
    rfl
  rw [if_neg hv4, if_neg hv4]
  by_cases hv6 : byteAt frame.toList 0 >>> 4 &&& 0x0F = 6
  · rw [if_pos hv6, if_pos hv6, Option.map_some, Option.map_some,
      MemoryView.slice_zero_length_self]
    rfl
  · rw [if_neg hv6, if_neg hv6]
    rfl

theorem stripLinkLayer_eq (linkType : Int) :
    stripLinkLayer linkType frame = .ok ((linkLayer linkType frame.toList).map
      fun (ethertype, offset) => (ethertype, frame.slice offset frame.length)) := by
  rw [stripLinkLayer]
  by_cases hether : linkType = dltEn10mb
  · rw [if_pos hether, stripEthernet_eq, hether]
  rw [if_neg hether]
  by_cases hsll : linkType = dltLinuxSll
  · rw [if_pos hsll, stripSll_eq, hsll]
  rw [if_neg hsll]
  by_cases hraw : linkType = dltRaw
  · rw [if_pos hraw, stripRaw_eq, hraw]
  · rw [if_neg hraw, linkLayer, if_neg hether, if_neg hsll, if_neg hraw]
    rfl

end Strip

section Datagram

variable (lib : IpAddressModule) (data : MemoryView UInt8)

theorem ipv4Str_eq {i : Nat} (h : i + 4 ≤ data.length) :
    lib.ipv4Str (data.slice i (i + 4)).toList =
      .ok (lib.text (.v4 (fixedAt 4 data.toList i))) := by
  have hlen := data.length_toList
  have hslice : (data.slice i (i + 4)).toList = (fixedAt 4 data.toList i).1 := by
    rw [fixedAt_eq_slice (by omega), MemoryView.toList_slice (by omega) h]
  rw [IpAddressModule.ipv4Str, hslice, dif_pos (fixedAt 4 data.toList i).2]
  rfl

theorem ipv6Str_eq {i : Nat} (h : i + 16 ≤ data.length) :
    lib.ipv6Str (data.slice i (i + 16)).toList =
      .ok (lib.text (.v6 (fixedAt 16 data.toList i))) := by
  have hlen := data.length_toList
  have hslice : (data.slice i (i + 16)).toList = (fixedAt 16 data.toList i).1 := by
    rw [fixedAt_eq_slice (by omega), MemoryView.toList_slice (by omega) h]
  rw [IpAddressModule.ipv6Str, hslice, dif_pos (fixedAt 16 data.toList i).2]
  rfl

theorem decapIpv4_of_udp (hudp : IsIpv4Udp data.toList) :
    decapIpv4 lib data =
      .ok (datagramOf lib (.v4 (fixedAt 4 data.toList 12)) (.v4 (fixedAt 4 data.toList 16))
        (data.slice (ipv4HeaderLength data.toList) (ipv4Stop data.toList))) := by
  have hlen := data.length_toList
  obtain ⟨hroom, hversion, hmin, hmax, hproto⟩ := hudp
  rw [ipVersion] at hversion
  rw [ipv4HeaderLength] at hmin hmax
  rw [decapIpv4, if_neg (by omega), getByte_byteAt (by omega), bind_ok]
  dsimp only
  rw [if_neg (not_not.mpr hversion), if_neg (by omega), getByte_byteAt (by omega), bind_ok,
    if_neg (not_not.mpr hproto), unpackFrom_halfAt (by omega), bind_ok,
    ipv4Str_eq lib data (i := 12) (by omega), bind_ok,
    ipv4Str_eq lib data (i := 16) (by omega), bind_ok, decapUdp_eq, ipv4Stop, ipv4HeaderLength,
    hlen]

/-- Whatever the header lacks, one of the checks finds it. -/
theorem decapIpv4_of_not_udp (hudp : ¬IsIpv4Udp data.toList) :
    decapIpv4 lib data = .ok none := by
  have hlen := data.length_toList
  rw [decapIpv4]
  by_cases hshort : data.length < 20
  · rw [if_pos hshort]
    rfl
  rw [if_neg hshort, getByte_byteAt (by omega), bind_ok]
  dsimp only
  by_cases hversion : byteAt data.toList 0 >>> 4 &&& 0x0F ≠ 4
  · rw [if_pos hversion]
    rfl
  rw [if_neg hversion]
  by_cases hheader : (byteAt data.toList 0 &&& 0x0F) * 4 < 20 ∨
      data.length < (byteAt data.toList 0 &&& 0x0F) * 4
  · rw [if_pos hheader]
    rfl
  rw [if_neg hheader, getByte_byteAt (by omega), bind_ok]
  have hproto : byteAt data.toList 9 ≠ protoUdp := by
    intro hproto
    apply hudp
    refine ⟨by omega, not_not.mp hversion, ?_, ?_, hproto⟩
    · rw [ipv4HeaderLength]
      omega
    · rw [ipv4HeaderLength]
      omega
  rw [if_pos hproto]
  rfl

theorem decapIpv4_eq :
    decapIpv4 lib data = .ok ((ipv4Segment data.toList).bind fun segment =>
      datagramOf lib (.v4 (fixedAt 4 data.toList 12)) (.v4 (fixedAt 4 data.toList 16))
        (data.slice segment.1 segment.2)) := by
  rw [ipv4Segment]
  by_cases hudp : IsIpv4Udp data.toList
  · rw [if_pos hudp, decapIpv4_of_udp lib data hudp, Option.bind_some]
  · rw [if_neg hudp, decapIpv4_of_not_udp lib data hudp, Option.bind_none]

theorem decapIpv6_eq :
    decapIpv6 lib data = .ok ((ipv6Segment data.toList).bind fun segment =>
      datagramOf lib (.v6 (fixedAt 16 data.toList 8)) (.v6 (fixedAt 16 data.toList 24))
        (data.slice segment.1 segment.2)) := by
  have hlen := data.length_toList
  rw [decapIpv6, ipv6Segment, hlen]
  by_cases hshort : data.length < 40
  · rw [if_pos hshort, if_neg (by omega)]
    rfl
  rw [if_neg hshort, getByte_byteAt (by omega), bind_ok]
  by_cases hversion : byteAt data.toList 0 >>> 4 &&& 0x0F ≠ 6
  · rw [if_pos hversion, if_neg fun h => hversion h.2]
    rfl
  rw [if_neg hversion, if_pos ⟨by omega, not_not.mp hversion⟩, getByte_byteAt (by omega), bind_ok,
    ipv6Str_eq lib data (i := 8) (by omega), bind_ok, ipv6Str_eq lib data (i := 24) (by omega),
    bind_ok, walkExtHeaders_eq, bind_ok]
  cases extWalk data.toList maxIpv6ExtHeaders (byteAt data.toList 6) 40 with
  | none => rfl
  | some walked =>
    obtain ⟨nextHeader, offset⟩ := walked
    rw [Option.bind_some]
    dsimp only
    by_cases hproto : nextHeader = protoUdp
    · rw [if_neg (not_not.mpr hproto), if_pos hproto, decapUdp_eq]
      rfl
    · rw [if_pos hproto, if_neg hproto]
      rfl

end Datagram

/-- The UDP segment of an IP packet, from where to where. -/
def ipSegment (ethertype : Nat) (ip : Bytes) : Option (Nat × Nat) :=
  if ethertype = ethertypeIpv4 then ipv4Segment ip
  else if ethertype = ethertypeIpv6 then ipv6Segment ip
  else none

def endpoints (ethertype : Nat) (ip : Bytes) : IpAddress × IpAddress :=
  if ethertype = ethertypeIpv4 then (.v4 (fixedAt 4 ip 12), .v4 (fixedAt 4 ip 16))
  else (.v6 (fixedAt 16 ip 8), .v6 (fixedAt 16 ip 24))

section Bounds

theorem vlanWalk_le {frame : Bytes} {tags ethertype offset : Nat} {found : Nat × Nat}
    (h : vlanWalk frame tags ethertype offset = some found) (hle : offset ≤ frame.length) :
    found.2 ≤ frame.length := by
  induction tags generalizing ethertype offset with
  | zero =>
    cases h
    exact hle
  | succ tags ih =>
    rw [vlanWalk] at h
    split at h
    next =>
      cases h
      exact hle
    split at h
    next => cases h
    next hroom => exact ih h (by omega)

theorem linkLayer_le {linkType : Int} {frame : Bytes} {found : Nat × Nat}
    (h : linkLayer linkType frame = some found) : found.2 ≤ frame.length := by
  unfold linkLayer at h
  split at h
  next =>
    split at h
    next => cases h
    next hroom => exact vlanWalk_le h (by omega)
  split at h
  next =>
    split at h
    next => cases h
    next hroom =>
      cases h
      exact Nat.le_of_not_lt hroom
  split at h
  next =>
    split at h
    next => cases h
    next =>
      obtain ⟨ethertype, -, rfl⟩ := Option.map_eq_some_iff.mp h
      exact Nat.zero_le _
  next => cases h

theorem extWalk_le {data : Bytes} {hops nextHeader offset : Nat} {walked : Nat × Nat}
    (h : extWalk data hops nextHeader offset = some walked) (hle : offset ≤ data.length) :
    offset ≤ walked.2 ∧ walked.2 ≤ data.length := by
  induction hops generalizing nextHeader offset with
  | zero =>
    cases h
    exact ⟨Nat.le_refl _, hle⟩
  | succ hops ih =>
    rw [extWalk] at h
    split at h
    next =>
      cases h
      exact ⟨Nat.le_refl _, hle⟩
    split at h
    next => cases h
    next hroom =>
      have hwalk := ih h (by omega)
      omega

theorem ipv4Stop_bounds {data : Bytes} (h : ipv4HeaderLength data ≤ data.length) :
    ipv4HeaderLength data ≤ ipv4Stop data ∧ ipv4Stop data ≤ data.length := by
  unfold ipv4Stop
  split
  next hlen => exact hlen
  next => exact ⟨h, Nat.le_refl _⟩

theorem ipSegment_bounds {ethertype : Nat} {ip : Bytes} {segment : Nat × Nat}
    (h : ipSegment ethertype ip = some segment) :
    segment.1 ≤ segment.2 ∧ segment.2 ≤ ip.length := by
  unfold ipSegment at h
  split at h
  next =>
    unfold ipv4Segment at h
    split at h
    next hudp =>
      cases h
      exact ipv4Stop_bounds hudp.2.2.2.1
    next => cases h
  split at h
  next =>
    unfold ipv6Segment at h
    split at h
    next hfixed =>
      obtain ⟨walked, hwalk, hproto⟩ := Option.bind_eq_some_iff.mp h
      split at hproto
      next =>
        cases hproto
        exact ⟨(extWalk_le hwalk hfixed.1).2, Nat.le_refl _⟩
      next => cases hproto
    next => cases h
  next => cases h

theorem udpStop_le (segment : Bytes) : udpStop segment ≤ segment.length := by
  unfold udpStop
  split
  next hlen => exact hlen.2
  next => exact Nat.le_refl _

theorem le_udpStop {segment : Bytes} (h : 8 ≤ segment.length) : 8 ≤ udpStop segment := by
  unfold udpStop
  split
  next hlen => exact hlen.1
  next => exact h

end Bounds

/-- The datagram in a segment that starts and stops at offsets of a frame. -/
def datagramAt (lib : IpAddressModule) (ends : IpAddress × IpAddress) (frame : Bytes)
    (start stop : Nat) : DecapsulatedUdp where
  srcIp := lib.text ends.1
  dstIp := lib.text ends.2
  srcPort := halfAt frame start
  dstPort := halfAt frame (start + 2)
  payload := (MemoryView.ofList frame).slice (start + 8)
    (start + udpStop (Chunk.slice frame start stop))

theorem datagramOf_slice (lib : IpAddressModule) (ends : IpAddress × IpAddress) {frame : Bytes}
    {start stop : Nat} (hstart : start ≤ stop) (hstop : stop ≤ frame.length) :
    datagramOf lib ends.1 ends.2 ((MemoryView.ofList frame).slice start stop) =
      if stop < start + 8 then none else some (datagramAt lib ends frame start stop) := by
  have hwhole : stop ≤ (MemoryView.ofList frame).length := hstop
  have hlist : ((MemoryView.ofList frame).slice start stop).toList =
      Chunk.slice frame start stop := by
    rw [MemoryView.toList_slice hstart hwhole, MemoryView.toList_ofList]
  have hlen : ((MemoryView.ofList frame).slice start stop).length = stop - start :=
    MemoryView.length_slice_eq hstart hwhole
  rw [datagramOf, hlen, hlist]
  by_cases hshort : stop < start + 8
  · rw [if_pos hshort, if_pos (by omega)]
  · have hlenSlice : (Chunk.slice frame start stop).length = stop - start := by
      rw [length_slice]
      omega
    have hle := udpStop_le (Chunk.slice frame start stop)
    have hge : 8 ≤ udpStop (Chunk.slice frame start stop) := le_udpStop (by omega)
    rw [if_neg hshort, if_neg (by omega), halfAt_slice (by omega), halfAt_slice (by omega),
      MemoryView.slice_slice_eq hstart hwhole hge (by omega)]
    rfl

theorem decapIp_eq (lib : IpAddressModule) (ethertype : Nat) (data : MemoryView UInt8) :
    (if ethertype = ethertypeIpv4 then decapIpv4 lib data
      else if ethertype = ethertypeIpv6 then decapIpv6 lib data
      else pure none) =
      .ok ((ipSegment ethertype data.toList).bind fun segment =>
        datagramOf lib (endpoints ethertype data.toList).1 (endpoints ethertype data.toList).2
          (data.slice segment.1 segment.2)) := by
  rw [ipSegment, endpoints]
  by_cases hv4 : ethertype = ethertypeIpv4
  · rw [if_pos hv4, if_pos hv4, if_pos hv4, decapIpv4_eq]
  rw [if_neg hv4, if_neg hv4, if_neg hv4]
  by_cases hv6 : ethertype = ethertypeIpv6
  · rw [if_pos hv6, if_pos hv6, decapIpv6_eq]
  · rw [if_neg hv6, if_neg hv6]
    rfl

/-- The whole of `decapsulate_udp`: it never fails, and finds the segment layer by layer. -/
theorem decapsulateUdp_eq (lib : IpAddressModule) (linkType : Int) (frame : Bytes) :
    decapsulateUdp lib linkType frame = .ok ((linkLayer linkType frame).bind fun link =>
      (ipSegment link.1 (frame.drop link.2)).bind fun segment =>
        if link.2 + segment.2 < link.2 + segment.1 + 8 then none
        else some (datagramAt lib (endpoints link.1 (frame.drop link.2)) frame
          (link.2 + segment.1) (link.2 + segment.2))) := by
  rw [decapsulateUdp, stripLinkLayer_eq, bind_ok, MemoryView.toList_ofList]
  cases hlink : linkLayer linkType frame with
  | none => rfl
  | some link =>
    obtain ⟨ethertype, offset⟩ := link
    have hoffset : offset ≤ frame.length := linkLayer_le hlink
    have hlist : ((MemoryView.ofList frame).slice offset frame.length).toList =
        frame.drop offset := by
      rw [MemoryView.toList_slice hoffset (Nat.le_refl _), MemoryView.toList_ofList, Chunk.slice,
        List.take_length]
    rw [Option.map_some, MemoryView.length_ofList, Option.bind_some]
    dsimp only
    rw [decapIp_eq, hlist]
    cases hsegment : ipSegment ethertype (frame.drop offset) with
    | none => rfl
    | some segment =>
      obtain ⟨hstart, hstop⟩ := ipSegment_bounds hsegment
      rw [List.length_drop] at hstop
      rw [Option.bind_some, Option.bind_some,
        MemoryView.slice_slice_eq hoffset (Nat.le_refl _) hstart hstop,
        datagramOf_slice lib _ (by omega) (by omega)]

section Result

variable {lib : IpAddressModule} {linkType : Int} {frame : Bytes}

theorem decapsulateUdp_of_segment {ethertype ipStart start stop : Nat}
    (hlink : linkLayer linkType frame = some (ethertype, ipStart))
    (hsegment : ipSegment ethertype (frame.drop ipStart) = some (start, stop))
    (hroom : start + 8 ≤ stop) :
    decapsulateUdp lib linkType frame =
      .ok (some (datagramAt lib (endpoints ethertype (frame.drop ipStart)) frame (ipStart + start)
        (ipStart + stop))) := by
  rw [decapsulateUdp_eq, hlink, Option.bind_some, hsegment, Option.bind_some, if_neg (by omega)]

/-- A datagram is returned when there is room for its header in the segment. -/
theorem decapsulateUdp_eq_some_iff {udp : DecapsulatedUdp} :
    decapsulateUdp lib linkType frame = .ok (some udp) ↔ ∃ ethertype ipStart start stop,
      linkLayer linkType frame = some (ethertype, ipStart) ∧
      ipSegment ethertype (frame.drop ipStart) = some (start, stop) ∧ start + 8 ≤ stop ∧
      udp = datagramAt lib (endpoints ethertype (frame.drop ipStart)) frame (ipStart + start)
        (ipStart + stop) := by
  constructor
  · intro h
    rw [decapsulateUdp_eq] at h
    obtain ⟨⟨ethertype, ipStart⟩, hlink, h⟩ := Option.bind_eq_some_iff.mp (Except.ok.inj h)
    obtain ⟨⟨start, stop⟩, hsegment, h⟩ := Option.bind_eq_some_iff.mp h
    split at h
    next => cases h
    next hroom =>
      refine ⟨ethertype, ipStart, start, stop, hlink, hsegment, ?_, (Option.some.inj h).symm⟩
      dsimp only at hroom
      omega
  · rintro ⟨ethertype, ipStart, start, stop, hlink, hsegment, hroom, rfl⟩
    exact decapsulateUdp_of_segment hlink hsegment hroom

theorem exists_decapsulateUdp (lib : IpAddressModule) (linkType : Int) (frame : Bytes) :
    ∃ result, decapsulateUdp lib linkType frame = .ok result :=
  ⟨_, decapsulateUdp_eq lib linkType frame⟩

theorem decapsulateUdp_eq_none_iff :
    decapsulateUdp lib linkType frame = .ok none ↔ ∀ ethertype ipStart start stop,
      linkLayer linkType frame = some (ethertype, ipStart) →
      ipSegment ethertype (frame.drop ipStart) = some (start, stop) → stop < start + 8 := by
  constructor
  · intro h ethertype ipStart start stop hlink hsegment
    by_contra hroom
    cases h.symm.trans (decapsulateUdp_of_segment hlink hsegment (by omega))
  · intro h
    obtain ⟨result, hresult⟩ := exists_decapsulateUdp lib linkType frame
    cases result with
    | none => exact hresult
    | some udp =>
      obtain ⟨ethertype, ipStart, start, stop, hlink, hsegment, hroom, -⟩ :=
        decapsulateUdp_eq_some_iff.mp hresult
      have hshort := h ethertype ipStart start stop hlink hsegment
      omega

end Result

end Rtpkit

import Rtpkit.DecapLayout
import Rtpkit.FrameGrammar

namespace Rtpkit

open Outcome Chunk

/-- The datagram with these addresses, ports and payload. -/
structure IsDatagram (lib : IpAddressModule) (src dst : IpAddress) (srcPort dstPort : Int)
    (payload : Bytes) (udp : DecapsulatedUdp) : Prop where
  srcIp : udp.srcIp = lib.text src
  dstIp : udp.dstIp = lib.text dst
  srcPort : udp.srcPort = srcPort
  dstPort : udp.dstPort = dstPort
  payload : udp.payload.toList = payload

section LinkLayer

variable {frame : Bytes} {off ethertype : Nat}

@[simp] theorem Link.length_tagsWire (tags : List (FixedBytes 2)) :
    (Link.tagsWire tags).length = 4 * tags.length := by
  induction tags with
  | nil => rfl
  | cons control tags ih =>
    rw [Link.tagsWire] at ih
    rw [Link.tagsWire, List.map_cons, List.flatten_cons, List.length_append, ih, List.length_append,
      Fmt.length_wire, Fmt.size_H, control.2, List.length_cons]
    omega

/-- The first tag of a stack, and the rest of the stack behind it. -/
theorem tag_of_standsAt {control : FixedBytes 2} {tags : List (FixedBytes 2)}
    (h : StandsAt frame off (Link.tagsWire (control :: tags) ++ Fmt.wire .H ethertype)) :
    halfAt frame off = ethertypeVlan ∧ off + 6 ≤ frame.length ∧
      StandsAt frame (off + 4) (Link.tagsWire tags ++ Fmt.wire .H ethertype) := by
  have hle := h.le_length
  rw [List.length_append, Link.length_tagsWire, List.length_cons, Fmt.length_wire,
    Fmt.size_H] at hle
  rw [Link.tagsWire, List.map_cons, List.flatten_cons, List.append_assoc, standsAt_append,
    standsAt_append, List.length_append, Fmt.length_wire, control.2] at h
  obtain ⟨⟨hvlan, -⟩, hrest⟩ := h
  exact ⟨halfAt_of_standsAt (by decide) hvlan, by omega, hrest⟩

theorem vlanWalk_of_tags (htype : ethertype ≤ 0xFFFF) (hvlan : ethertype ≠ ethertypeVlan)
    {tags : List (FixedBytes 2)} {budget : Nat} (hle : tags.length ≤ budget)
    (h : StandsAt frame off (Link.tagsWire tags ++ Fmt.wire .H ethertype)) :
    vlanWalk frame budget (halfAt frame off) (off + 2) =
      some (ethertype, off + (Link.tagsWire tags ++ Fmt.wire .H ethertype).length) := by
  rw [List.length_append, Link.length_tagsWire, Fmt.length_wire, Fmt.size_H]
  induction tags generalizing budget off with
  | nil =>
    rw [halfAt_of_standsAt htype h]
    cases budget with
    | zero => rfl
    | succ budget =>
      rw [vlanWalk, if_pos hvlan]
      rfl
  | cons control tags ih =>
    obtain ⟨hfirst, hroom, hrest⟩ := tag_of_standsAt h
    rw [List.length_cons] at hle ⊢
    obtain ⟨budget, rfl⟩ : ∃ rest, budget = rest + 1 := ⟨budget - 1, by omega⟩
    rw [vlanWalk, hfirst, if_neg (not_not.mpr rfl), if_neg (by omega), Nat.add_assoc off 2 2,
      Nat.add_right_comm off 2 4, ih (by omega) hrest]
    congr 2
    omega

/-- More tags than the loop walks over leave a tag behind it. -/
theorem vlanWalk_of_many_tags {tags : List (FixedBytes 2)} {budget : Nat}
    (hlt : budget < tags.length)
    (h : StandsAt frame off (Link.tagsWire tags ++ Fmt.wire .H ethertype)) :
    vlanWalk frame budget (halfAt frame off) (off + 2) =
      some (ethertypeVlan, off + 2 + 4 * budget) := by
  induction budget generalizing tags off with
  | zero =>
    obtain ⟨control, tags, rfl⟩ := List.exists_cons_of_length_pos hlt
    rw [vlanWalk, (tag_of_standsAt h).1]
  | succ budget ih =>
    obtain ⟨control, tags, rfl⟩ := List.exists_cons_of_length_pos (Nat.zero_lt_of_lt hlt)
    obtain ⟨hfirst, hroom, hrest⟩ := tag_of_standsAt h
    rw [List.length_cons] at hlt
    rw [vlanWalk, hfirst, if_neg (not_not.mpr rfl), if_neg (by omega), Nat.add_assoc off 2 2,
      Nat.add_right_comm off 2 4, ih (by omega) hrest]
    congr 2
    omega

theorem IpHeader.ethertype_le (ip : IpHeader) : ip.ethertype ≤ 0xFFFF := by
  cases ip with
  | v4 header => exact (show ethertypeIpv4 ≤ 0xFFFF by decide)
  | v6 header => exact (show ethertypeIpv6 ≤ 0xFFFF by decide)

theorem IpHeader.ethertype_ne_vlan (ip : IpHeader) : ip.ethertype ≠ ethertypeVlan := by
  cases ip with
  | v4 header => exact (show ethertypeIpv4 ≠ ethertypeVlan by decide)
  | v6 header => exact (show ethertypeIpv6 ≠ ethertypeVlan by decide)

theorem linkLayer_ethernet {macs : FixedBytes 12} {tags : List (FixedBytes 2)}
    (hstands : StandsAt frame 0 ((Link.ethernet macs tags).wire ethertype)) :
    linkLayer dltEn10mb frame = vlanWalk frame maxVlanTags (halfAt frame 12) (12 + 2) ∧
      StandsAt frame 12 (Link.tagsWire tags ++ Fmt.wire .H ethertype) := by
  have hle := hstands.le_length
  rw [Link.wire, standsAt_append, macs.2, Nat.zero_add] at hstands
  rw [Link.wire, List.length_append, macs.2, List.length_append, Link.length_tagsWire,
    Fmt.length_wire, Fmt.size_H] at hle
  rw [linkLayer, if_pos rfl, if_neg (by omega)]
  exact ⟨rfl, hstands.2⟩

/-- The link layer in front of a packet is stripped off. -/
theorem linkLayer_wire (link : Link) (ip : IpHeader) {packet : Bytes}
    (htags : link.tagCount ≤ maxVlanTags)
    (hversion : ethertypeOfVersion (ipVersion packet) = some ip.ethertype) :
    linkLayer link.linkType (link.wire ip.ethertype ++ packet) =
      some (ip.ethertype, (link.wire ip.ethertype).length) := by
  have hstands : StandsAt (link.wire ip.ethertype ++ packet) 0 (link.wire ip.ethertype) :=
    (standsAt_append.mp (standsAt_self _)).1
  cases link with
  | ethernet macs tags =>
    obtain ⟨hlink, htagged⟩ := linkLayer_ethernet hstands
    have hlen : ((Link.ethernet macs tags).wire ip.ethertype).length =
        12 + (Link.tagsWire tags ++ Fmt.wire .H ip.ethertype).length := by
      rw [Link.wire, List.length_append, macs.2]
    rw [Link.linkType, hlink,
      vlanWalk_of_tags ip.ethertype_le ip.ethertype_ne_vlan htags htagged, hlen]
  | sll head =>
    have hlen : ((Link.sll head).wire ip.ethertype).length = 16 := by
      rw [Link.wire, List.length_append, head.2, Fmt.length_wire, Fmt.size_H]
    have hle := hstands.le_length
    have htype := (standsAt_append.mp hstands).2
    rw [head.2, Nat.zero_add] at htype
    rw [linkLayer, Link.linkType, if_neg (by decide), if_pos rfl, if_neg (by omega), hlen,
      halfAt_of_standsAt ip.ethertype_le htype]
  | raw =>
    have hpacket : packet ≠ [] := by
      rintro rfl
      exact absurd hversion (by simp [ipVersion, byteAt, ethertypeOfVersion])
    have hlength := List.length_pos_iff.mpr hpacket
    rw [Link.wire, List.nil_append, linkLayer, Link.linkType, if_neg (by decide),
      if_neg (by decide), if_pos rfl, if_neg (by omega), hversion]
    rfl

theorem linkLayer_of_many_tags (link : Link) (packet : Bytes)
    (htags : maxVlanTags < link.tagCount) :
    ∃ offset, linkLayer link.linkType (link.wire ethertype ++ packet) =
      some (ethertypeVlan, offset) := by
  have hstands : StandsAt (link.wire ethertype ++ packet) 0 (link.wire ethertype) :=
    (standsAt_append.mp (standsAt_self _)).1
  cases link with
  | ethernet macs tags =>
    obtain ⟨hlink, htagged⟩ := linkLayer_ethernet hstands
    exact ⟨_, hlink.trans (vlanWalk_of_many_tags htags htagged)⟩
  | sll head => exact absurd htags (Nat.not_lt_zero _)
  | raw => exact absurd htags (Nat.not_lt_zero _)

end LinkLayer

section Extensions

variable {data : Bytes} {off : Nat}

theorem ExtHeader.number_mem (header : ExtHeader) : header.number ∈ ipv6ExtHeaders := by
  cases header with
  | sized kind units contents units_lt =>
    cases kind with
    | hopbyhop => exact (show ipv6Hopbyhop ∈ ipv6ExtHeaders by decide)
    | routing => exact (show ipv6Routing ∈ ipv6ExtHeaders by decide)
    | destopts => exact (show ipv6Destopts ∈ ipv6ExtHeaders by decide)
  | fragment => exact (show ipv6Fragment ∈ ipv6ExtHeaders by decide)

theorem nextNumber_le (chain : List ExtHeader) : nextNumber chain ≤ 0xFF := by
  cases chain with
  | nil => exact (show protoUdp ≤ 0xFF by decide)
  | cons header chain =>
    exact (show ∀ number ∈ ipv6ExtHeaders, number ≤ 0xFF by decide) _ header.number_mem

/-- What the walk reads in an extension header. -/
theorem extHeader_of_standsAt {header : ExtHeader} {following : Nat} (hle : following ≤ 0xFF)
    (h : StandsAt data off (header.wire following)) :
    byteAt data off = following ∧
      extLength data header.number off = (header.wire following).length := by
  cases header with
  | sized kind units contents units_lt =>
    rw [ExtHeader.wire, standsAt_append, standsAt_append, Fmt.length_wire, Fmt.size_B] at h
    obtain ⟨hnext, hunits, -⟩ := h
    refine ⟨byteAt_of_standsAt hle hnext, ?_⟩
    have hsized : (ExtHeader.sized kind units contents units_lt).number ≠ ipv6Fragment := by
      cases kind with
      | hopbyhop => exact (show ipv6Hopbyhop ≠ ipv6Fragment by decide)
      | routing => exact (show ipv6Routing ≠ ipv6Fragment by decide)
      | destopts => exact (show ipv6Destopts ≠ ipv6Fragment by decide)
    rw [extLength, if_neg hsized, byteAt_of_standsAt (by omega) hunits, ExtHeader.wire,
      List.length_append, List.length_append, Fmt.length_wire, Fmt.length_wire, Fmt.size_B,
      contents.2]
    omega
  | fragment reserved flags identification flags_lt =>
    rw [ExtHeader.wire, standsAt_append] at h
    refine ⟨byteAt_of_standsAt hle h.1, ?_⟩
    rw [extLength, ExtHeader.number, if_pos rfl, ExtHeader.wire, List.length_append,
      List.length_append, List.length_append, Fmt.length_wire, Fmt.length_wire, Fmt.size_B,
      Fmt.size_H, reserved.2, identification.2]

/-- One turn of the walk goes over the first header of a chain. -/
theorem extWalk_header {header : ExtHeader} {chain : List ExtHeader}
    (h : StandsAt data off (chainWire (header :: chain))) (hops : Nat) :
    extWalk data (hops + 1) header.number off =
        extWalk data hops (nextNumber chain) (off + (header.wire (nextNumber chain)).length) ∧
      StandsAt data (off + (header.wire (nextNumber chain)).length) (chainWire chain) := by
  rw [chainWire, standsAt_append] at h
  obtain ⟨hheader, hchain⟩ := h
  obtain ⟨hnext, hlength⟩ := extHeader_of_standsAt (nextNumber_le chain) hheader
  refine ⟨?_, hchain⟩
  rw [extWalk, if_neg (not_not.mpr header.number_mem), hlength,
    if_neg (Nat.not_lt.mpr hheader.le_length), hnext]

theorem extWalk_of_chain {chain : List ExtHeader} {hops : Nat} (hle : chain.length ≤ hops)
    (h : StandsAt data off (chainWire chain)) :
    extWalk data hops (nextNumber chain) off =
      some (protoUdp, off + (chainWire chain).length) := by
  induction chain generalizing hops off with
  | nil =>
    cases hops with
    | zero => rfl
    | succ hops =>
      rw [nextNumber, extWalk, if_pos (show protoUdp ∉ ipv6ExtHeaders by decide)]
      rfl
  | cons header chain ih =>
    rw [List.length_cons] at hle
    obtain ⟨hops, rfl⟩ : ∃ rest, hops = rest + 1 := ⟨hops - 1, by omega⟩
    obtain ⟨hwalk, hchain⟩ := extWalk_header h hops
    rw [nextNumber, hwalk, ih (by omega) hchain, chainWire, List.length_append, Nat.add_assoc]

/-- More headers than the loop walks over leave an extension header behind it. -/
theorem extWalk_of_long_chain {chain : List ExtHeader} {hops : Nat} (hlt : hops < chain.length)
    (h : StandsAt data off (chainWire chain)) :
    ∃ walked, extWalk data hops (nextNumber chain) off = some walked ∧
      walked.1 ∈ ipv6ExtHeaders := by
  induction hops generalizing chain off with
  | zero =>
    obtain ⟨header, chain, rfl⟩ := List.exists_cons_of_length_pos hlt
    exact ⟨_, rfl, header.number_mem⟩
  | succ hops ih =>
    obtain ⟨header, chain, rfl⟩ := List.exists_cons_of_length_pos (Nat.zero_lt_of_lt hlt)
    obtain ⟨hwalk, hchain⟩ := extWalk_header h hops
    rw [List.length_cons] at hlt
    obtain ⟨walked, hrest, hmem⟩ := ih (by omega) hchain
    exact ⟨walked, hwalk.trans hrest, hmem⟩

end Extensions

section IpHeaders

variable {data : Bytes}

/-- What the reader finds in an IPv4 header. -/
theorem ipv4Header_of_standsAt {header : Ipv4Header} {udpLength : Nat}
    (hfits : 20 + header.options.length + udpLength ≤ 0xFFFF)
    (h : StandsAt data 0 (header.wire udpLength)) :
    ipVersion data = 4 ∧ ipv4HeaderLength data = 20 + header.options.length ∧
      halfAt data 2 = 20 + header.options.length + udpLength ∧ byteAt data 9 = protoUdp ∧
      fixedAt 4 data 12 = header.source ∧ fixedAt 4 data 16 = header.destination := by
  have haligned := header.options_aligned
  have hoptions := header.options_le
  simp only [Ipv4Header.wire, standsAt_append, Fmt.length_wire, Fmt.size_B, Fmt.size_H,
    header.tos.2, header.identification.2, header.ttl.2, header.checksum.2, header.source.2,
    header.destination.2, Nat.zero_add, Nat.reduceAdd] at h
  obtain ⟨hfirst, -, htotal, -, -, -, hproto, -, hsource, hdestination, -⟩ := h
  have hbyte := byteAt_of_standsAt (by omega) hfirst
  have hnibbles : ∀ k < 11, (0x40 + (5 + k)) >>> 4 &&& 0x0F = 4 ∧
      ((0x40 + (5 + k)) &&& 0x0F) * 4 = 20 + 4 * k := by
    decide
  obtain ⟨hversion, hlength⟩ := hnibbles (header.options.length / 4) (by omega)
  refine ⟨?_, ?_, halfAt_of_standsAt hfits htotal, byteAt_of_standsAt (by decide) hproto,
    fixedAt_of_standsAt hsource, fixedAt_of_standsAt hdestination⟩
  · rw [ipVersion, hbyte, hversion]
  · rw [ipv4HeaderLength, hbyte, hlength]
    omega

/-- The first byte of a 32-bit number is its highest. -/
theorem byteAt_of_word {off n : Nat} (h : StandsAt data off (Fmt.wire .I n)) :
    byteAt data off = n / 2 ^ 24 % 256 := by
  have hfirst := (standsAt_append (x := [UInt8.ofNat (n / 256 ^ 3)])
    (y := BigEndian.encode 3 n)).mp h
  have hbyte := standsAt_singleton.mp hfirst.1
  rw [byteAt, List.getD_eq_getElem?_getD, hbyte]
  simp

theorem ipv6Header_of_standsAt {header : Ipv6Header} (h : StandsAt data 0 header.wire) :
    ipVersion data = 6 ∧ byteAt data 6 = nextNumber header.chain ∧
      fixedAt 16 data 8 = header.source ∧ fixedAt 16 data 24 = header.destination ∧
      StandsAt data 40 (chainWire header.chain) := by
  have hflow := header.classAndFlow_lt
  simp only [Ipv6Header.wire, standsAt_append, Fmt.length_wire, Fmt.size_B, Fmt.size_I,
    header.payloadLength.2, header.hopLimit.2, header.source.2, header.destination.2,
    Nat.zero_add, Nat.reduceAdd] at h
  obtain ⟨hfirst, -, hnext, -, hsource, hdestination, hchain⟩ := h
  have hbyte := byteAt_of_word hfirst
  have hnibble : ∀ k < 16, (96 + k) >>> 4 &&& 0x0F = 6 := by
    decide
  have hhigh : (6 * 2 ^ 28 + header.classAndFlow) / 2 ^ 24 % 256 =
      96 + header.classAndFlow / 2 ^ 24 := by
    omega
  refine ⟨?_, byteAt_of_standsAt (nextNumber_le _) hnext, fixedAt_of_standsAt hsource,
    fixedAt_of_standsAt hdestination, hchain⟩
  rw [ipVersion, hbyte, hhigh]
  exact hnibble _ (by omega)

theorem length_ipv4Wire (header : Ipv4Header) (udpLength : Nat) :
    (header.wire udpLength).length = 20 + header.options.length := by
  simp only [Ipv4Header.wire, List.length_append, Fmt.length_wire, Fmt.size_B, Fmt.size_H,
    header.tos.2, header.identification.2, header.ttl.2, header.checksum.2, header.source.2,
    header.destination.2]
  omega

theorem length_ipv6Wire (header : Ipv6Header) :
    header.wire.length = 40 + (chainWire header.chain).length := by
  simp only [Ipv6Header.wire, List.length_append, Fmt.length_wire, Fmt.size_B, Fmt.size_I,
    header.payloadLength.2, header.hopLimit.2, header.source.2, header.destination.2]
  omega

theorem ethertypeOfVersion_of_standsAt {ip : IpHeader} {udpLength : Nat}
    (hfits : udpLength ≤ ip.room) (h : StandsAt data 0 (ip.wire udpLength)) :
    ethertypeOfVersion (ipVersion data) = some ip.ethertype := by
  cases ip with
  | v4 header =>
    have hoptions := header.options_le
    rw [IpHeader.room] at hfits
    rw [(ipv4Header_of_standsAt (by omega) h).1]
    rfl
  | v6 header =>
    rw [(ipv6Header_of_standsAt h).1]
    rfl

/-- Behind the IP header of a datagram its segment begins. -/
theorem ipSegment_of_standsAt {ip : IpHeader} {udpLength : Nat} (hfits : udpLength ≤ ip.room)
    (hchain : ip.extCount ≤ maxIpv6ExtHeaders) (h : StandsAt data 0 (ip.wire udpLength))
    (hroom : (ip.wire udpLength).length + udpLength ≤ data.length) :
    ∃ stop, ipSegment ip.ethertype data = some ((ip.wire udpLength).length, stop) ∧
      (ip.wire udpLength).length + udpLength ≤ stop ∧
      endpoints ip.ethertype data = (ip.source, ip.destination) := by
  cases ip with
  | v4 header =>
    have hoptions := header.options_le
    rw [IpHeader.room] at hfits
    obtain ⟨hversion, hlength, htotal, hproto, hsource, hdestination⟩ :=
      ipv4Header_of_standsAt (by omega) h
    rw [IpHeader.wire, length_ipv4Wire] at hroom ⊢
    refine ⟨20 + header.options.length + udpLength, ?_, Nat.le_refl _, ?_⟩
    · have hudp : IsIpv4Udp data := ⟨by omega, hversion, by omega, by omega, hproto⟩
      rw [IpHeader.ethertype, ipSegment, if_pos rfl, ipv4Segment, if_pos hudp, ipv4Stop, hlength,
        htotal, if_pos ⟨by omega, by omega⟩]
    · rw [IpHeader.ethertype, endpoints, if_pos rfl, hsource, hdestination]
      rfl
  | v6 header =>
    obtain ⟨hversion, hnext, hsource, hdestination, hchainWire⟩ := ipv6Header_of_standsAt h
    rw [IpHeader.wire, length_ipv6Wire] at hroom ⊢
    refine ⟨data.length, ?_, hroom, ?_⟩
    · rw [IpHeader.ethertype, ipSegment, if_neg (by decide), if_pos rfl, ipv6Segment,
        if_pos ⟨by omega, hversion⟩, hnext, extWalk_of_chain hchain hchainWire, Option.bind_some,
        if_pos rfl]
    · rw [IpHeader.ethertype, endpoints, if_neg (by decide), hsource, hdestination]
      rfl

theorem ipSegment_of_long_chain {ip : IpHeader} {udpLength : Nat}
    (hchain : maxIpv6ExtHeaders < ip.extCount) (h : StandsAt data 0 (ip.wire udpLength)) :
    ipSegment ip.ethertype data = none := by
  cases ip with
  | v4 header => exact absurd hchain (Nat.not_lt_zero _)
  | v6 header =>
    obtain ⟨hversion, hnext, -, -, hchainWire⟩ := ipv6Header_of_standsAt h
    obtain ⟨walked, hwalk, hmem⟩ := extWalk_of_long_chain hchain hchainWire
    have hproto : walked.1 ≠ protoUdp := by
      intro heq
      rw [heq] at hmem
      exact absurd hmem (by decide)
    have hle := hchainWire.le_length
    rw [IpHeader.ethertype, ipSegment, if_neg (by decide), if_pos rfl, ipv6Segment,
      if_pos ⟨by omega, hversion⟩, hnext, hwalk, Option.bind_some, if_neg hproto]

end IpHeaders

theorem UdpFrame.length_segment (frame : UdpFrame) :
    frame.segment.length = 8 + frame.payload.length := by
  simp only [UdpFrame.segment, List.length_append, Fmt.length_wire, Fmt.size_H, frame.checksum.2]
  omega

/-- A UDP segment that stands in a frame is cut at its own length. -/
theorem UdpFrame.isDatagram_datagramAt (lib : IpAddressModule) (frame : UdpFrame) {data : Bytes}
    {start stop : Nat} (h : StandsAt data start frame.segment)
    (hstop : start + (8 + frame.payload.length) ≤ stop) (hle : stop ≤ data.length) :
    IsDatagram lib frame.ip.source frame.ip.destination frame.srcPort frame.dstPort frame.payload
      (datagramAt lib (frame.ip.source, frame.ip.destination) data start stop) := by
  have hsrc := frame.srcPort_le
  have hdst := frame.dstPort_le
  have hfits : 8 + frame.payload.length ≤ 0xFFFF := by
    have hroom := frame.length_le
    unfold IpHeader.room at hroom
    split at hroom
    next => omega
    next => exact hroom
  rw [UdpFrame.segment, standsAt_append, standsAt_append, standsAt_append, standsAt_append,
    Fmt.length_wire, Fmt.size_H, Fmt.length_wire, Fmt.size_H, Fmt.length_wire, Fmt.size_H,
    frame.checksum.2] at h
  obtain ⟨hsrcPort, hdstPort, hlength, -, hpayload⟩ := h
  have hudpStop : udpStop (Chunk.slice data start stop) = 8 + frame.payload.length := by
    have hlen : (Chunk.slice data start stop).length = stop - start := by
      rw [length_slice]
      omega
    rw [udpStop, halfAt_slice (by omega), halfAt_of_standsAt hfits hlength, if_pos (by omega)]
  refine ⟨rfl, rfl, congrArg Int.ofNat (halfAt_of_standsAt hsrc hsrcPort),
    congrArg Int.ofNat (halfAt_of_standsAt hdst hdstPort), ?_⟩
  have hwhole : start + (8 + frame.payload.length) ≤ (MemoryView.ofList data).length :=
    Nat.le_trans hstop hle
  rw [datagramAt, hudpStop, MemoryView.toList_slice (by omega) hwhole, MemoryView.toList_ofList,
    ← Nat.add_assoc]
  exact hpayload.slice_eq

/-- A frame splits into its link layer, its IP header, its segment and what is behind. -/
theorem UdpFrame.standsAt_wire (frame : UdpFrame) :
    StandsAt (frame.wire.drop (frame.link.wire frame.ip.ethertype).length) 0
        (frame.ip.wire (8 + frame.payload.length)) ∧
      StandsAt frame.wire ((frame.link.wire frame.ip.ethertype).length +
        (frame.ip.wire (8 + frame.payload.length)).length) frame.segment := by
  have hself := standsAt_self frame.wire
  rw [UdpFrame.wire, standsAt_append, standsAt_append, standsAt_append, Nat.zero_add] at hself
  obtain ⟨-, -, hsegment, -⟩ := hself
  refine ⟨?_, hsegment⟩
  rw [UdpFrame.wire, List.drop_left]
  exact (standsAt_append.mp (standsAt_self _)).1

theorem UdpFrame.linkLayer_eq (frame : UdpFrame) (htags : frame.link.tagCount ≤ maxVlanTags) :
    linkLayer frame.link.linkType frame.wire =
      some (frame.ip.ethertype, (frame.link.wire frame.ip.ethertype).length) := by
  obtain ⟨hheader, -⟩ := frame.standsAt_wire
  rw [UdpFrame.wire, List.drop_left] at hheader
  exact linkLayer_wire frame.link frame.ip htags
    (ethertypeOfVersion_of_standsAt frame.length_le hheader)

theorem UdpFrame.exists_decapsulateUdp (lib : IpAddressModule) (frame : UdpFrame)
    (htags : frame.link.tagCount ≤ maxVlanTags) (hchain : frame.ip.extCount ≤ maxIpv6ExtHeaders) :
    ∃ udp, decapsulateUdp lib frame.link.linkType frame.wire = .ok (some udp) ∧
      IsDatagram lib frame.ip.source frame.ip.destination frame.srcPort frame.dstPort frame.payload
        udp := by
  obtain ⟨hheader, hsegment⟩ := frame.standsAt_wire
  have hsegmentLen := frame.length_segment
  have hle := hsegment.le_length
  have hlink := frame.linkLayer_eq htags
  obtain ⟨stop, hip, hstop, hends⟩ := ipSegment_of_standsAt frame.length_le hchain hheader
    (by rw [List.length_drop]; omega)
  have hbound := ipSegment_bounds hip
  rw [List.length_drop] at hbound
  refine ⟨_, decapsulateUdp_of_segment hlink hip (by omega), ?_⟩
  rw [hends]
  exact frame.isDatagram_datagramAt lib hsegment (by omega) (by omega)

/-- What the two loops do not get to the end of is not a datagram. -/
theorem UdpFrame.decapsulateUdp_eq_none (lib : IpAddressModule) (frame : UdpFrame)
    (h : maxVlanTags < frame.link.tagCount ∨ maxIpv6ExtHeaders < frame.ip.extCount) :
    decapsulateUdp lib frame.link.linkType frame.wire = .ok none := by
  rw [decapsulateUdp_eq]
  by_cases htags : frame.link.tagCount ≤ maxVlanTags
  · have hchain := h.resolve_left (Nat.not_lt.mpr htags)
    rw [frame.linkLayer_eq htags, Option.bind_some,
      ipSegment_of_long_chain hchain frame.standsAt_wire.1]
    rfl
  · obtain ⟨offset, hlink⟩ : ∃ offset, linkLayer frame.link.linkType frame.wire =
        some (ethertypeVlan, offset) :=
      linkLayer_of_many_tags frame.link _ (Nat.lt_of_not_le htags)
    rw [hlink]
    rfl

/-- A datagram in a well-formed frame is recovered if the loops get to the end of the tags and of
the extension headers, and nothing is recovered otherwise. -/
theorem decapsulateUdp_wire (lib : IpAddressModule) (frame : UdpFrame) :
    (frame.link.tagCount ≤ 2 → frame.ip.extCount ≤ 8 →
      ∃ udp, decapsulateUdp lib frame.link.linkType frame.wire = .ok (some udp) ∧
        udp.srcIp = lib.text frame.ip.source ∧ udp.dstIp = lib.text frame.ip.destination ∧
        udp.srcPort = frame.srcPort ∧ udp.dstPort = frame.dstPort ∧
        udp.payload.toList = frame.payload) ∧
    (3 ≤ frame.link.tagCount ∨ 9 ≤ frame.ip.extCount →
      decapsulateUdp lib frame.link.linkType frame.wire = .ok none) := by
  constructor
  · intro htags hchain
    obtain ⟨udp, hudp, hfields⟩ := frame.exists_decapsulateUdp lib htags hchain
    exact ⟨udp, hudp, hfields.srcIp, hfields.dstIp, Int.ofNat.inj hfields.srcPort,
      Int.ofNat.inj hfields.dstPort, hfields.payload⟩
  · exact frame.decapsulateUdp_eq_none lib

/-- A frame with some tags, two extension headers and a trailer. -/
def taggedFrame (tags : Nat) : UdpFrame where
  link := .ethernet ⟨List.replicate 12 0, rfl⟩ (List.replicate tags ⟨[0, 5], rfl⟩)
  ip := .v6 {
    classAndFlow := 0
    payloadLength := ⟨[0, 34], rfl⟩
    hopLimit := ⟨[64], rfl⟩
    source := sampleHost 1
    destination := sampleHost 2
    chain := [.sized .destopts 1 ⟨List.replicate 14 0, rfl⟩ (by decide),
      .fragment ⟨[0], rfl⟩ 1 ⟨List.replicate 4 0, rfl⟩ (by decide)]
    classAndFlow_lt := classAndFlow_zero_lt }
  srcPort := 5004
  dstPort := 5006
  checksum := ⟨List.replicate 2 0, rfl⟩
  payload := [1, 2]
  trailer := [0xEE, 0xEE]
  srcPort_le := by decide
  dstPort_le := by decide
  length_le := by decide

theorem decapsulateUdp_wire_taggedFrame :
    (∃ udp, decapsulateUdp sampleAddresses dltEn10mb (taggedFrame 2).wire = .ok (some udp) ∧
      udp.srcIp = "2001:db8::1" ∧ udp.dstIp = "2001:db8::2" ∧ udp.srcPort = 5004 ∧
      udp.dstPort = 5006 ∧ udp.payload.toList = [1, 2]) ∧
    decapsulateUdp sampleAddresses dltEn10mb (taggedFrame 3).wire = .ok none :=
  ⟨(decapsulateUdp_wire sampleAddresses (taggedFrame 2)).1 (by decide) (by decide),
    (decapsulateUdp_wire sampleAddresses (taggedFrame 3)).2 (.inl (by decide))⟩

end Rtpkit

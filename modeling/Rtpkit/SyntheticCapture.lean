import Rtpkit.EncapRoundTrip
import Rtpkit.RtpRoundTrip
import Rtpkit.WritersAgree

namespace Rtpkit

open Outcome Alignment

/-- The way that a datagram takes into a capture, and when. -/
structure Route where
  linkType : Int
  srcIp : String
  dstIp : String
  srcPort : Int
  dstPort : Int
  timestamp : ℚ

/-- A payload, built, put into a frame and into a record. -/
def Route.record (lib : IpAddressModule) (route : Route) (build : Except Error Bytes) :
    Except Error PcapPacket := do
  let data ← build
  let frame ← encapsulateUdp lib route.linkType route.srcIp route.dstIp route.srcPort
    route.dstPort data
  pure {
    timestamp := route.timestamp
    capturedLength := frame.length
    originalLength := frame.length
    linkType := route.linkType
    data := frame }

/-- One RTP packet that goes into a synthetic capture. -/
structure SyntheticItem extends Route where
  builder : RtpBuilder

def SyntheticItem.record (lib : IpAddressModule) (item : SyntheticItem) :
    Except Error PcapPacket :=
  item.toRoute.record lib item.builder.build

/-- The way back from a record: its datagram, and the RTP packet in that. -/
def recoverRtp (lib : IpAddressModule) (pkt : PcapPacket) :
    Except Error (Option (DecapsulatedUdp × RtpPacket)) := do
  let found ← decapsulateUdp lib pkt.linkType pkt.data
  match found with
  | none => pure none
  | some udp => do
    let rtp ← parseRtp udp.payload.toList
    pure (some (udp, rtp))

theorem SupportedLink.fits_H {linkType : Int} (h : SupportedLink linkType) :
    Fmt.Fits .H linkType := by
  rcases h with rfl | rfl | rfl
  · decide
  · decide
  · decide

theorem SupportedLink.fits_I {linkType : Int} (h : SupportedLink linkType) :
    Fmt.Fits .I linkType := by
  have hfits := Fmt.fits_H.mp h.fits_H
  exact Fmt.fits_I.mpr (by omega)

/-- The datagram of a record goes the way of the route. -/
structure Route.Carries (lib : IpAddressModule) (route : Route) (data : Bytes) (pkt : PcapPacket)
    (udp : DecapsulatedUdp) : Prop where
  timestamp : pkt.timestamp = route.timestamp
  decapsulates : decapsulateUdp lib pkt.linkType pkt.data = .ok (some udp)
  payload : udp.payload.toList = data
  srcIp : lib.Canonical route.srcIp → udp.srcIp = route.srcIp
  dstIp : lib.Canonical route.dstIp → udp.dstIp = route.dstIp
  srcPort : udp.srcPort = route.srcPort
  dstPort : udp.dstPort = route.dstPort

/-- Whatever is recorded comes out of the record again. -/
theorem Route.exists_carries {lib : IpAddressModule} {route : Route} {build : Except Error Bytes}
    {pkt : PcapPacket} (h : route.record lib build = .ok pkt) :
    ∃ data udp, build = .ok data ∧ route.Carries lib data pkt udp := by
  obtain ⟨data, hbuild, h⟩ := bind_eq_ok.mp h
  obtain ⟨frame, hframe, h⟩ := bind_eq_ok.mp h
  obtain rfl := pure_eq_ok.mp h
  obtain ⟨src, dst, hsrc, hdst, hargs, hlink, rfl⟩ := encapsulateUdp_eq_ok_iff.mp hframe
  obtain ⟨udp, hudp, hfields⟩ := exists_decapsulateUdp_frameOf lib hlink hargs
  exact ⟨data, udp, hbuild, rfl, hudp, hfields.payload,
    fun hcanonical => hfields.srcIp.trans (hcanonical.text_eq hsrc),
    fun hcanonical => hfields.dstIp.trans (hcanonical.text_eq hdst), hfields.srcPort,
    hfields.dstPort⟩

/-- No record is older than what was recorded. -/
theorem Route.timestamps_nonneg {α : Type} {lib : IpAddressModule} (route : α → Route)
    (build : α → Except Error Bytes) {items : List α} {records : List PcapPacket}
    (htime : ∀ item ∈ items, 0 ≤ (route item).timestamp)
    (hrecords : items.mapM (fun item => (route item).record lib (build item)) = .ok records) :
    ∀ pkt ∈ records, 0 ≤ pkt.timestamp := by
  intro pkt hpkt
  obtain ⟨item, hitem, hrecord⟩ := (mapM_mem hrecords).2 pkt hpkt
  obtain ⟨_, _, -, hcarries⟩ := Route.exists_carries hrecord
  rw [hcarries.timestamp]
  exact htime item hitem

namespace SyntheticItem

structure Valid (lib : IpAddressModule) (item : SyntheticItem) : Prop where
  builder : item.builder.Valid
  version : item.builder.version = 2
  linkType : SupportedLink item.linkType
  srcIp : lib.Canonical item.srcIp
  dstIp : lib.Canonical item.dstIp
  srcPort : 0 ≤ item.srcPort ∧ item.srcPort ≤ 0xFFFF
  dstPort : 0 ≤ item.dstPort ∧ item.dstPort ≤ 0xFFFF
  addresses : ∃ src dst, lib.ipAddress item.srcIp = some src ∧
    lib.ipAddress item.dstIp = some dst ∧ src.version = dst.version ∧
    ∀ rtp, item.builder.build = .ok rtp → rtp.length ≤ maxUdpPayload src

/-- From a record the packet of an item comes back, with the addresses and ports of the item. -/
def Recovers (lib : IpAddressModule) (item : SyntheticItem) (pkt : PcapPacket) : Prop :=
  ∃ udp, recoverRtp lib pkt = .ok (some (udp, item.builder.packet udp.payload.toList)) ∧
    udp.srcIp = item.srcIp ∧ udp.dstIp = item.dstIp ∧
    udp.srcPort = item.srcPort ∧ udp.dstPort = item.dstPort

structure IsRecord (lib : IpAddressModule) (item : SyntheticItem) (pkt : PcapPacket) : Prop where
  timestamp : pkt.timestamp = item.timestamp
  originalLength : pkt.originalLength = pkt.data.length
  linkType : pkt.linkType = item.linkType
  length : pkt.data.length < 2 ^ 17
  recovers : item.Recovers lib pkt

section Record

variable {lib : IpAddressModule} {item : SyntheticItem} {pkt : PcapPacket}

theorem length_frameOf_lt {linkType : Int} {src dst : IpAddress} {srcPort dstPort : Int}
    {payload : Bytes} (h : Encapsulable src dst srcPort dstPort payload) :
    (frameOf linkType src dst srcPort dstPort payload).length < 2 ^ 17 := by
  have hlen := h.length_le
  have hlink := length_linkHead_le linkType (ethertypeOf src)
  have hip := length_ipHead h.version (8 + payload.length)
  rw [frameOf, ipWire, List.length_append, List.length_append, length_udpWire, hip]
  split
  next => omega
  next => omega

/-- Every step of the chain takes what the one before it hands on. -/
theorem Valid.exists_record (h : item.Valid lib) :
    ∃ pkt, item.record lib = .ok pkt ∧ item.IsRecord lib pkt := by
  obtain ⟨src, dst, hsrc, hdst, hversion, hfits⟩ := h.addresses
  have hbuild : item.builder.build = .ok item.builder.wire :=
    RtpBuilder.build_eq_ok.mpr ⟨h.builder, rfl⟩
  have hvalid : Encapsulable src dst item.srcPort item.dstPort item.builder.wire :=
    ⟨hversion, h.srcPort, h.dstPort, hfits _ hbuild⟩
  have hframe := encapsulateUdp_eq_ok_iff.mpr ⟨src, dst, hsrc, hdst, hvalid, h.linkType, rfl⟩
  obtain ⟨udp, hudp, hfields⟩ := exists_decapsulateUdp_frameOf lib h.linkType hvalid
  have hparse : parseRtp item.builder.wire = .ok (item.builder.packet item.builder.wire) :=
    (RtpBuilder.parse_wire h.builder true).trans (if_pos (.inl h.version))
  refine ⟨_, by rw [record, Route.record, hbuild, bind_ok, hframe, bind_ok]; rfl, rfl, rfl, rfl,
    length_frameOf_lt hvalid, udp, ?_, hfields.srcIp.trans (h.srcIp.text_eq hsrc),
    hfields.dstIp.trans (h.dstIp.text_eq hdst), hfields.srcPort, hfields.dstPort⟩
  rw [recoverRtp, hudp, bind_ok, hfields.payload]
  dsimp only
  rw [hfields.payload, hparse]
  rfl

theorem IsRecord.writable (h : item.IsRecord lib pkt) (hvalid : item.Valid lib) :
    pkt.Writable := by
  have hlen := h.length
  have halign := fill_lt 4 pkt.data.length
  refine ⟨⟨?_, by omega⟩, ?_⟩
  · rw [h.originalLength, Fmt.fits_I]
    omega
  · rw [h.linkType]
    exact hvalid.linkType.fits_H

/-- The timestamps that round to a microsecond within 32 bits of seconds. -/
def FitsPcap (item : SyntheticItem) : Prop :=
  0 ≤ item.timestamp ∧ roundHalfEven (item.timestamp * 1000000) < 2 ^ 32 * 1000000

theorem IsRecord.fitsHeader (h : item.IsRecord lib pkt) (htime : item.FitsPcap) :
    pkt.FitsHeader ∧ 0 ≤ pkt.timestamp := by
  obtain ⟨hnonneg, hlt⟩ := htime
  rw [← h.timestamp] at hnonneg hlt
  have hlen := h.length
  have htick := tick_nonneg hnonneg
  rw [PcapPacket.tick] at htick
  refine ⟨⟨?_, ?_, Fmt.fits_I.mpr (by omega), ?_⟩, hnonneg⟩
  · rw [splitTimestamp_eq hnonneg, Fmt.fits_I]
    dsimp only
    omega
  · rw [splitTimestamp_eq hnonneg, Fmt.fits_I]
    dsimp only
    omega
  · rw [h.originalLength, Fmt.fits_I]
    omega

theorem IsRecord.of_record (h : item.Valid lib) (hrecord : item.record lib = .ok pkt) :
    item.IsRecord lib pkt := by
  obtain ⟨pkt', hpkt', hspec⟩ := h.exists_record
  cases hrecord.symm.trans hpkt'
  exact hspec

theorem Recovers.requantised (h : item.Recovers lib pkt) : item.Recovers lib pkt.requantised := h

end Record

section Capture

variable {lib : IpAddressModule} {items : List SyntheticItem} {records : List PcapPacket}

theorem isRecord_of_mapM (h : ∀ item ∈ items, item.Valid lib)
    (hrecords : items.mapM (record lib) = .ok records) :
    List.Forall₂ (fun item pkt => item.IsRecord lib pkt) items records := by
  have hboth := (List.forall₂_and_left items records).mpr ⟨h, mapM_eq_ok.mp hrecords⟩
  exact hboth.imp fun item pkt hpair => IsRecord.of_record hpair.1 hpair.2

theorem recovers_requantised
    (h : List.Forall₂ (fun item pkt => item.IsRecord lib pkt) items records) :
    List.Forall₂ (Recovers lib) items (records.map PcapPacket.requantised) :=
  List.forall₂_map_right_iff.mpr (h.imp fun _ _ hrecord => hrecord.recovers.requantised)

theorem exists_item_of_mem (h : ∀ item ∈ items, item.Valid lib)
    (hrecords : items.mapM (record lib) = .ok records) {pkt : PcapPacket} (hpkt : pkt ∈ records) :
    ∃ item ∈ items, item.IsRecord lib pkt := by
  obtain ⟨item, hitem, hrecord⟩ := (mapM_mem hrecords).2 pkt hpkt
  exact ⟨item, hitem, .of_record (h item hitem) hrecord⟩

theorem exists_readCapture_writePcapng (h : ∀ item ∈ items, item.Valid lib)
    (hrecords : items.mapM (record lib) = .ok records) :
    ∃ b, writePcapng records = .ok b ∧
      readCapture b = ⟨records.map PcapPacket.requantised, none⟩ := by
  have hwritable : ∀ pkt ∈ records, pkt.Writable := by
    intro pkt hpkt
    obtain ⟨item, hitem, hrecord⟩ := exists_item_of_mem h hrecords hpkt
    exact hrecord.writable (h item hitem)
  exact ⟨_, writePcapng_of_writable hwritable, readCapture_pcapngImage hwritable⟩

theorem exists_readCapture_writePcap (h : ∀ item ∈ items, item.Valid lib)
    (hrecords : items.mapM (record lib) = .ok records) {linkType : Int} (hne : items ≠ [])
    (hsame : ∀ item ∈ items, item.linkType = linkType) (htime : ∀ item ∈ items, item.FitsPcap) :
    ∃ b, writePcap records none = .ok b ∧
      readCapture b = ⟨records.map PcapPacket.requantised, none⟩ := by
  have hsameRecords : ∀ pkt ∈ records, pkt.linkType = linkType := by
    intro pkt hpkt
    obtain ⟨item, hitem, hrecord⟩ := exists_item_of_mem h hrecords hpkt
    exact hrecord.linkType.trans (hsame item hitem)
  have hheader : ∀ pkt ∈ records, pkt.FitsHeader ∧ 0 ≤ pkt.timestamp := by
    intro pkt hpkt
    obtain ⟨item, hitem, hrecord⟩ := exists_item_of_mem h hrecords hpkt
    exact hrecord.fitsHeader (htime item hitem)
  obtain ⟨first, hfirst⟩ := List.exists_mem_of_ne_nil items hne
  have hlink : Fmt.Fits .I linkType := by
    rw [← hsame first hfirst]
    exact (h first hfirst).linkType.fits_I
  have hneRecords : records ≠ [] := by
    apply List.ne_nil_of_length_pos
    rw [(mapM_mem hrecords).1]
    exact List.length_pos_of_mem hfirst
  have hwrite : writePcap records none = .ok (pcapImage linkType records) :=
    writePcap_eq_ok.mpr ⟨linkType, chosenLinkType_of_forall hneRecords hsameRecords,
      hsameRecords, hlink, fun pkt hpkt => (hheader pkt hpkt).1, rfl⟩
  exact ⟨_, hwrite, readCapture_pcapImage hlink hsameRecords hheader⟩

end Capture

end SyntheticItem

/-- What is built, put into frames and written comes back from the file, item by item. -/
theorem syntheticCapture_recovered (lib : IpAddressModule) (items : List SyntheticItem)
    (h : ∀ item ∈ items, item.Valid lib) :
    ∃ records, items.mapM (SyntheticItem.record lib) = .ok records ∧
      (∃ b again, writePcapng records = .ok b ∧ readCapture b = ⟨again, none⟩ ∧
        List.Forall₂ (SyntheticItem.Recovers lib) items again) ∧
      ∀ linkType, items ≠ [] → (∀ item ∈ items, item.linkType = linkType) →
        (∀ item ∈ items, item.FitsPcap) →
        ∃ b again, writePcap records none = .ok b ∧ readCapture b = ⟨again, none⟩ ∧
          List.Forall₂ (SyntheticItem.Recovers lib) items again := by
  obtain ⟨records, hrecords⟩ := exists_mapM_eq_ok fun item hitem =>
    let ⟨pkt, hpkt, _⟩ := (h item hitem).exists_record
    ⟨pkt, hpkt⟩
  have hrecovers := SyntheticItem.recovers_requantised (SyntheticItem.isRecord_of_mapM h hrecords)
  refine ⟨records, hrecords, ?_, ?_⟩
  · obtain ⟨b, hwrite, hread⟩ := SyntheticItem.exists_readCapture_writePcapng h hrecords
    exact ⟨b, _, hwrite, hread, hrecovers⟩
  · intro linkType hne hsame htime
    obtain ⟨b, hwrite, hread⟩ :=
      SyntheticItem.exists_readCapture_writePcap h hrecords hne hsame htime
    exact ⟨b, _, hwrite, hread, hrecovers⟩

/-- An item with a small packet, between two of the sample addresses. -/
def sampleItem (srcIp dstIp : String) : SyntheticItem where
  builder := { payloadType := 8, seq := 7, payload := [1, 2, 3] }
  linkType := dltRaw
  srcIp := srcIp
  dstIp := dstIp
  srcPort := 5004
  dstPort := 5006
  timestamp := 1 / 3

theorem sampleItem_valid {srcIp dstIp : String} (src dst : IpAddress)
    (hsrc : sampleAddresses.ipAddress srcIp = some src) (hsrcText : sampleAddresses.text src = srcIp)
    (hdst : sampleAddresses.ipAddress dstIp = some dst) (hdstText : sampleAddresses.text dst = dstIp)
    (hversion : src.version = dst.version) : (sampleItem srcIp dstIp).Valid sampleAddresses := by
  have hbuilder : (sampleItem srcIp dstIp).builder.Valid :=
    ⟨⟨by simp [sampleItem], by simp [sampleItem]⟩, by simp [sampleItem], by simp [sampleItem, u16],
      by simp [sampleItem, u32], by simp [sampleItem, u32], by simp [sampleItem, maxCsrc],
      by simp [sampleItem], by simp [sampleItem], by simp [sampleItem]⟩
  refine ⟨hbuilder, rfl, .inr (.inr rfl), ⟨src, hsrc, hsrcText⟩, ⟨dst, hdst, hdstText⟩,
    by simp [sampleItem], by simp [sampleItem], src, dst, hsrc, hdst, hversion, ?_⟩
  intro rtp hrtp
  obtain ⟨-, rfl⟩ := RtpBuilder.build_eq_ok.mp hrtp
  have hlen : (sampleItem srcIp dstIp).builder.wire.length = 15 := rfl
  rw [hlen, maxUdpPayload]
  split
  next => decide
  next => decide

/-- An item of each version, written by both writers. -/
theorem syntheticCapture_recovered_versions :
    ∃ records, [sampleItem "10.0.0.1" "10.0.0.2", sampleItem "2001:db8::1" "2001:db8::2"].mapM
        (SyntheticItem.record sampleAddresses) = .ok records ∧
      (∃ b again, writePcapng records = .ok b ∧ readCapture b = ⟨again, none⟩ ∧
        again.length = 2) ∧
      ∃ b again, writePcap records none = .ok b ∧ readCapture b = ⟨again, none⟩ ∧
        again.length = 2 := by
  have hvalid4 : (sampleItem "10.0.0.1" "10.0.0.2").Valid sampleAddresses :=
    sampleItem_valid (.v4 ⟨[10, 0, 0, 1], rfl⟩) (.v4 ⟨[10, 0, 0, 2], rfl⟩) (by decide +kernel)
      (by decide +kernel) (by decide +kernel) (by decide +kernel) rfl
  have hvalid6 : (sampleItem "2001:db8::1" "2001:db8::2").Valid sampleAddresses :=
    sampleItem_valid
      (.v6 ⟨[0x20, 0x01, 0x0d, 0xb8, 0, 0, 0, 0, 0, 0, 0, 0, 0, 0, 0, 1], rfl⟩)
      (.v6 ⟨[0x20, 0x01, 0x0d, 0xb8, 0, 0, 0, 0, 0, 0, 0, 0, 0, 0, 0, 2], rfl⟩) (by decide +kernel)
      (by decide +kernel) (by decide +kernel) (by decide +kernel) rfl
  have htime : ∀ srcIp dstIp, (sampleItem srcIp dstIp).FitsPcap := fun srcIp dstIp =>
    show 0 ≤ (1 / 3 : ℚ) ∧ roundHalfEven (1 / 3 * 1000000) < 2 ^ 32 * 1000000 by decide +kernel
  obtain ⟨records, hrecords, ⟨b, again, hwrite, hread, hrecovers⟩, hpcap⟩ :=
    syntheticCapture_recovered sampleAddresses
      [sampleItem "10.0.0.1" "10.0.0.2", sampleItem "2001:db8::1" "2001:db8::2"]
      (by simpa using ⟨hvalid4, hvalid6⟩)
  obtain ⟨b', again', hwrite', hread', hrecovers'⟩ :=
    hpcap dltRaw (by simp) (by simp [sampleItem]) (by simp [htime])
  exact ⟨records, hrecords, ⟨b, again, hwrite, hread, hrecovers.length_eq.symm⟩,
    b', again', hwrite', hread', hrecovers'.length_eq.symm⟩

end Rtpkit

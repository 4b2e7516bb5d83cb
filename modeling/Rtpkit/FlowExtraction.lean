import Rtpkit.CaptureEditing
import Rtpkit.CaptureItems

namespace Rtpkit

open Outcome Chunk

section Flow

variable (lib : IpAddressModule) (dstPort : Nat)

/-- The condition of the comprehension: the frame holds a datagram to the port. -/
def goesTo (linkType : Int) (frame : Bytes) : Except Error Bool := do
  let udp ← decapsulateUdp lib linkType frame
  match udp with
  | none => pure false
  | some udp => pure (udp.dstPort = dstPort)

/-- Read, filter down to one RTP flow, write back out. -/
def flowEdit : Edit where
  keep := goesTo lib dstPort
  format := .pcap

/-- The packets of the flow. -/
def isWanted (pkt : PcapPacket) : Bool :=
  match decapsulateUdp lib pkt.linkType pkt.data with
  | .ok (some udp) => udp.dstPort = dstPort
  | _ => false

end Flow

theorem PcapPacket.FitsHeader.tick_lt {pkt : PcapPacket} (h : pkt.FitsHeader)
    (htime : 0 ≤ pkt.timestamp) : pkt.tick < 2 ^ 32 * 1000000 := by
  have hsplit : splitTimestamp pkt.timestamp = (pkt.tick / 1000000, pkt.tick % 1000000) :=
    splitTimestamp_eq htime
  have hseconds := h.seconds
  rw [hsplit, Fmt.fits_I] at hseconds
  dsimp only at hseconds
  omega

/-- What has been read fits a record when the clock of the record has room. -/
theorem PcapPacket.FileSized.fitsHeader_iff {pkt : PcapPacket} (h : pkt.FileSized) :
    pkt.FitsHeader ↔ pkt.tick < 2 ^ 32 * 1000000 := by
  have hlen := h.dataLength
  have htick := tick_nonneg h.timestamp
  have hsplit : splitTimestamp pkt.timestamp = (pkt.tick / 1000000, pkt.tick % 1000000) :=
    splitTimestamp_eq h.timestamp
  refine ⟨fun hfits => hfits.tick_lt h.timestamp, ?_⟩
  intro hlt
  refine ⟨?_, ?_, Fmt.fits_I.mpr (by omega), h.originalLength⟩
  · rw [hsplit, Fmt.fits_I]
    dsimp only
    omega
  · rw [hsplit, Fmt.fits_I]
    dsimp only
    omega

section Select

variable {lib : IpAddressModule} {dstPort : Nat}

theorem goesTo_eq (pkt : PcapPacket) :
    goesTo lib dstPort pkt.linkType pkt.data = .ok (isWanted lib dstPort pkt) := by
  obtain ⟨result, hresult⟩ := exists_decapsulateUdp lib pkt.linkType pkt.data
  rw [goesTo, isWanted, hresult]
  cases result with
  | none => rfl
  | some udp => rfl

theorem select_flowEdit (packets : List PcapPacket) :
    (flowEdit lib dstPort).select packets = .ok (packets.filter (isWanted lib dstPort)) := by
  induction packets with
  | nil => rfl
  | cons pkt packets ih =>
    rw [Edit.select, ih, List.filter_cons]
    show (goesTo lib dstPort pkt.linkType pkt.data >>= _) = _
    rw [goesTo_eq, bind_ok, bind_ok]
    cases isWanted lib dstPort pkt <;> rfl

theorem filter_requantised (packets : List PcapPacket) :
    (packets.map PcapPacket.requantised).filter (isWanted lib dstPort) =
      (packets.filter (isWanted lib dstPort)).map PcapPacket.requantised := by
  rw [List.filter_map]
  rfl

end Select

/-- Without a clash the classic writer fails as `struct` does. -/
theorem writePcap_struct_of_not_clash {packets : List PcapPacket} {linkType : Option Int} {e : Error}
    (hclash : ¬LinkTypeClash packets linkType) (h : writePcap packets linkType = .error e) :
    IsStructError e := by
  obtain ⟨chosen, hchosen, hsame⟩ := exists_chosenLinkType hclash
  have hcheck : checkLinkTypes chosen 0 packets = .ok () := checkLinkTypes_eq_ok.mpr hsame
  rw [writePcap, chooseLinkType_eq_ok.mpr hchosen, bind_ok, hcheck, bind_ok] at h
  have hrest : FailsOnly IsStructError (buildGlobalHeader chosen >>= fun header =>
      packets.mapM buildRecord >>= fun records => pure (header ++ records.flatten)) :=
    failsOnly_bind (buildGlobalHeader_failsOnly _) fun _ _ =>
      failsOnly_bind (failsOnly_mapM fun pkt _ => buildRecord_failsOnly pkt) fun _ _ => failsOnly_ok _
  exact hrest e h

/-- Without an argument, packets clash that have no link type to choose or two of them. -/
theorem linkTypeClash_none_iff {packets : List PcapPacket} :
    LinkTypeClash packets none ↔
      packets = [] ∨ ∃ pkt ∈ packets, ∃ pkt' ∈ packets, pkt.linkType ≠ pkt'.linkType := by
  cases packets with
  | nil => exact iff_of_true (.inl ⟨rfl, rfl⟩) (.inl rfl)
  | cons first packets =>
    have hchosen : chosenLinkType (first :: packets) none = some first.linkType := rfl
    rw [LinkTypeClash, hchosen]
    constructor
    · rintro (⟨hnil, -⟩ | ⟨pkt, hpkt, hne⟩)
      · cases hnil
      · exact .inr ⟨pkt, hpkt, first, List.mem_cons_self, fun h => hne (congrArg some h)⟩
    · rintro (hnil | ⟨pkt, hpkt, pkt', hpkt', hne⟩)
      · cases hnil
      · by_contra hall
        rw [not_or] at hall
        have hsame : ∀ pkt ∈ first :: packets, pkt.linkType = first.linkType := by
          intro pkt hpkt
          by_contra hother
          exact hall.2 ⟨pkt, hpkt, fun h => hother (Option.some.inj h)⟩
        exact hne ((hsame pkt hpkt).trans (hsame pkt' hpkt').symm)

theorem not_linkTypeClash_none_iff {packets : List PcapPacket} :
    ¬LinkTypeClash packets none ↔
      packets ≠ [] ∧ ∀ pkt ∈ packets, ∀ pkt' ∈ packets, pkt.linkType = pkt'.linkType := by
  rw [linkTypeClash_none_iff]
  simp only [not_or, not_exists, not_and, not_not, ne_eq]

section Write

variable {packets : List PcapPacket}

/-- Packets of one link type are written when the clock has room for them. -/
theorem writePcap_fileSized_iff (hne : packets ≠ []) (hsame : ¬LinkTypeClash packets none)
    (h : ∀ pkt ∈ packets, pkt.FileSized) :
    (∃ b, writePcap packets none = .ok b) ↔ ∀ pkt ∈ packets, pkt.tick < 2 ^ 32 * 1000000 := by
  have hfits : (∀ pkt ∈ packets, pkt.FitsHeader) ↔ ∀ pkt ∈ packets, pkt.tick < 2 ^ 32 * 1000000 :=
    forall₂_congr fun pkt hpkt => (h pkt hpkt).fitsHeader_iff
  rw [← hfits]
  constructor
  · rintro ⟨b, hb⟩
    obtain ⟨chosen, -, -, -, hall, -⟩ := writePcap_eq_ok.mp hb
    exact hall
  · intro hall
    obtain ⟨chosen, hchosen, hlinks⟩ := exists_chosenLinkType hsame
    obtain ⟨pkt, hpkt⟩ := List.exists_mem_of_ne_nil packets hne
    have hlink := (h pkt hpkt).linkTypeFits
    rw [hlinks pkt hpkt] at hlink
    exact ⟨_, writePcap_eq_ok.mpr ⟨chosen, hchosen, hlinks, hlink, hall, rfl⟩⟩

theorem writePcap_struct_iff (hclash : ¬LinkTypeClash packets none) :
    (∃ detail, writePcap packets none = .error (.structError detail)) ↔
      ¬∃ b, writePcap packets none = .ok b := by
  constructor
  · rintro ⟨detail, he⟩ ⟨b, hb⟩
    cases he.symm.trans hb
  · intro hnot
    cases hwrite : writePcap packets none with
    | ok b => exact absurd ⟨b, hwrite⟩ hnot
    | error e =>
      obtain ⟨detail, rfl⟩ := writePcap_struct_of_not_clash hclash hwrite
      exact ⟨detail, rfl⟩

end Write

theorem file_flowEdit {lib : IpAddressModule} {dstPort : Nat} {data : Bytes}
    {packets : List PcapPacket} (h : readCapture data = ⟨packets, none⟩) :
    (flowEdit lib dstPort).file data = writePcap (packets.filter (isWanted lib dstPort)) none := by
  rw [Edit.file, h, Edit.selectFrom_returned, select_flowEdit]
  rfl

/-- A file of a flow is read as its packets to half a microsecond, and filtering it changes no byte
of it. -/
theorem flowEdit_written {lib : IpAddressModule} {dstPort : Nat} {kept : List PcapPacket} {b : Bytes}
    (hwanted : kept.filter (isWanted lib dstPort) = kept) (honClock : ∀ pkt ∈ kept, pkt.OnClock)
    (hb : writePcap kept none = .ok b) :
    ∃ again, readCapture b = ⟨again, none⟩ ∧ List.Forall₂ KeepsPacket kept again ∧
      (flowEdit lib dstPort).file b = .ok b := by
  have hagain : readCapture b = ⟨kept.map PcapPacket.requantised, none⟩ :=
    readCapture_write (fun pkt hpkt => (honClock pkt hpkt).1)
      (show CaptureFormat.pcap.write kept = .ok b from hb)
  refine ⟨_, hagain, keepsPacket_map_requantised honClock, ?_⟩
  have hrewrite := write_requantised .pcap honClock
  rw [file_flowEdit hagain, filter_requantised, hwanted]
  exact hrewrite.trans hb

/-- Filtering a capture down to one flow fails as the reader fails, by an exception of its own when
there is no packet of the flow or when two have different link types, and by that of `struct` when
one is too late for the clock; the file it writes holds the packets of the flow to half a
microsecond, and filtering that file changes no byte of it. -/
theorem flowEdit_outcome (lib : IpAddressModule) (dstPort : Nat) (data : Bytes) :
    (∀ e, (readCapture data).failure = some e →
      (flowEdit lib dstPort).file data = .error e) ∧
    ∀ packets kept, readCapture data = ⟨packets, none⟩ →
      packets.filter (isWanted lib dstPort) = kept →
      ((∃ detail, (flowEdit lib dstPort).file data = .error (.pcapWriteError detail)) ↔
        kept = [] ∨ ∃ pkt ∈ kept, ∃ pkt' ∈ kept, pkt.linkType ≠ pkt'.linkType) ∧
      (kept ≠ [] → (∀ pkt ∈ kept, ∀ pkt' ∈ kept, pkt.linkType = pkt'.linkType) →
        ((∃ detail, (flowEdit lib dstPort).file data = .error (.structError detail)) ↔
          ∃ pkt ∈ kept, 2 ^ 32 * 1000000 ≤ pkt.tick) ∧
        ((∀ pkt ∈ kept, pkt.tick < 2 ^ 32 * 1000000) →
          ∃ b again, (flowEdit lib dstPort).file data = .ok b ∧ readCapture b = ⟨again, none⟩ ∧
            List.Forall₂ KeepsPacket kept again ∧ (flowEdit lib dstPort).file b = .ok b)) := by
  constructor
  · intro e he
    rw [Edit.file, Edit.selectFrom, select_flowEdit, bind_ok, he]
    rfl
  · intro packets kept hread hkept
    have hfile : (flowEdit lib dstPort).file data = writePcap kept none := by
      rw [file_flowEdit hread, hkept]
    have hsized : ∀ pkt ∈ kept, pkt.FileSized := by
      intro pkt hpkt
      rw [← hkept, List.mem_filter] at hpkt
      have hitem : pkt ∈ (readCapture data).items := by
        rw [hread]
        exact hpkt.1
      exact fileSized_of_readCapture pkt hitem
    rw [hfile]
    refine ⟨?_, fun hne hsame => ?_⟩
    · rw [← linkTypeClash_none_iff, ← writePcap_raises_iff]
      constructor
      · rintro ⟨detail, he⟩
        exact ⟨_, he, detail, rfl⟩
      · rintro ⟨e, he, detail, rfl⟩
        exact ⟨detail, he⟩
    · have hclash : ¬LinkTypeClash kept none := not_linkTypeClash_none_iff.mpr ⟨hne, hsame⟩
      have hok := writePcap_fileSized_iff hne hclash hsized
      refine ⟨?_, fun hclock => ?_⟩
      · rw [writePcap_struct_iff hclash, hok]
        simp only [not_forall, not_lt, exists_prop]
      · obtain ⟨b, hb⟩ := hok.mpr hclock
        have honClock : ∀ pkt ∈ kept, pkt.OnClock := by
          intro pkt hpkt
          have hlt := hclock pkt hpkt
          exact ⟨(hsized pkt hpkt).timestamp, by omega⟩
        -- the packets of the flow are those of the flow once more
        have htwice : kept.filter (isWanted lib dstPort) = kept := by
          rw [← hkept, List.filter_filter]
          simp only [Bool.and_self]
        obtain ⟨again, hagain, hkeeps, hfilter⟩ := flowEdit_written htwice honClock hb
        exact ⟨b, again, hb, hagain, hkeeps, hfilter⟩

end Rtpkit

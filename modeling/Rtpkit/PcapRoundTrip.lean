import Rtpkit.PcapReadBack

namespace Rtpkit

/-- The packets that a record holds to half a microsecond. -/
structure PcapPacket.FitsRecord (pkt : PcapPacket) : Prop where
  originalLength : Fmt.Fits .I pkt.originalLength
  data : pkt.data.length < 2 ^ 32
  timestamp : 0 ≤ pkt.timestamp
  seconds : pkt.timestamp < 2 ^ 32 - 1

namespace PcapPacket.FitsRecord

variable {pkt : PcapPacket}

theorem tick_le (h : pkt.FitsRecord) : pkt.tick ≤ (2 ^ 32 - 1) * 1000000 := by
  have hlt := h.seconds
  apply roundHalfEven_le
  push_cast
  linarith

theorem tick_lt (h : pkt.FitsRecord) : pkt.tick < 2 ^ 64 := by
  have hle := h.tick_le
  omega

theorem splitTimestamp_eq (h : pkt.FitsRecord) :
    splitTimestamp pkt.timestamp = (pkt.tick / 1000000, pkt.tick % 1000000) :=
  Rtpkit.splitTimestamp_eq h.timestamp

theorem fitsHeader (h : pkt.FitsRecord) : pkt.FitsHeader := by
  have hle := h.tick_le
  have h0 := tick_nonneg h.timestamp
  refine ⟨?_, ?_, Fmt.fits_I.mpr ?_, h.originalLength⟩
  · rw [h.splitTimestamp_eq, Fmt.fits_I]
    dsimp only
    omega
  · rw [h.splitTimestamp_eq, Fmt.fits_I]
    dsimp only
    omega
  · have hdata := h.data
    omega

/-- A packet that has been written and read back splits into the same seconds and microseconds. -/
theorem splitTimestamp_requantised (h : pkt.FitsRecord) :
    splitTimestamp pkt.requantised.timestamp = splitTimestamp pkt.timestamp := by
  have hnonneg : 0 ≤ pkt.requantised.timestamp := by
    have hmod : (0 : ℚ) ≤ ((pkt.tick % 2 ^ 64 : ℤ) : ℚ) := by
      exact_mod_cast Int.emod_nonneg _ (by norm_num)
    exact div_nonneg hmod (by norm_num)
  have htick : roundHalfEven (pkt.requantised.timestamp * 1000000) = pkt.tick := by
    rw [← tick_mod_of_lt h.timestamp h.tick_lt, ← tick_requantised]
    rfl
  rw [h.splitTimestamp_eq, Rtpkit.splitTimestamp_eq hnonneg, htick]

theorem recordWire_requantised (h : pkt.FitsRecord) :
    recordWire pkt.requantised = recordWire pkt := by
  rw [recordWire, h.splitTimestamp_requantised]
  rfl

theorem fitsHeader_requantised (h : pkt.FitsRecord) : pkt.requantised.FitsHeader := by
  have hheader := h.fitsHeader
  refine ⟨?_, ?_, hheader.data, hheader.originalLength⟩
  · rw [h.splitTimestamp_requantised]
    exact hheader.seconds
  · rw [h.splitTimestamp_requantised]
    exact hheader.microseconds

end PcapPacket.FitsRecord

section Rewrite

variable {packets : List PcapPacket} {chosen : Int}

theorem pcapImage_requantised (h : ∀ pkt ∈ packets, pkt.FitsRecord) :
    pcapImage chosen (packets.map PcapPacket.requantised) = pcapImage chosen packets := by
  rw [pcapImage, pcapImage, List.map_map]
  congr 2
  exact List.map_congr_left fun pkt hpkt => (h pkt hpkt).recordWire_requantised

theorem readPcap_pcapImage_of_fitsRecord (hlink : Fmt.Fits .I chosen)
    (hsame : ∀ pkt ∈ packets, pkt.linkType = chosen) (h : ∀ pkt ∈ packets, pkt.FitsRecord) :
    readPcap (pcapImage chosen packets) = ⟨packets.map PcapPacket.requantised, none⟩ :=
  readPcap_pcapImage hlink hsame fun pkt hpkt => ⟨(h pkt hpkt).fitsHeader, (h pkt hpkt).timestamp⟩

/-- What is read back can be written with the same argument, to the same file. -/
theorem writePcap_requantised {linkType : Option Int}
    (hchosen : chosenLinkType packets linkType = some chosen) (hlink : Fmt.Fits .I chosen)
    (hsame : ∀ pkt ∈ packets, pkt.linkType = chosen) (h : ∀ pkt ∈ packets, pkt.FitsRecord) :
    writePcap (packets.map PcapPacket.requantised) linkType = .ok (pcapImage chosen packets) := by
  refine writePcap_eq_ok.mpr ⟨chosen, ?_, ?_, hlink, ?_, (pcapImage_requantised h).symm⟩
  · rw [chosenLinkType_requantised, hchosen]
  · exact List.forall_mem_map.mpr hsame
  · exact List.forall_mem_map.mpr fun pkt hpkt => (h pkt hpkt).fitsHeader_requantised

end Rewrite

theorem keepsPacket_of_fitsRecord {packets : List PcapPacket}
    (h : ∀ pkt ∈ packets, pkt.FitsRecord) :
    List.Forall₂ KeepsPacket packets (packets.map PcapPacket.requantised) :=
  keepsPacket_map_requantised fun pkt hpkt => ⟨(h pkt hpkt).timestamp, (h pkt hpkt).tick_lt⟩

/-- The writer refuses a clash of link types and nothing else by its own exception; the file it
writes is read back to half a microsecond, and rewriting it changes no byte. -/
theorem writePcap_roundTrip (packets : List PcapPacket) (linkType : Option Int) :
    ((∃ detail, writePcap packets linkType = .error (.pcapWriteError detail)) ↔
      LinkTypeClash packets linkType) ∧
    (¬LinkTypeClash packets linkType →
      (∀ chosen, chosenLinkType packets linkType = some chosen → Fmt.Fits .I chosen) →
      (∀ pkt ∈ packets, pkt.FitsRecord) →
      ∃ b again, writePcap packets linkType = .ok b ∧ readPcap b = ⟨again, none⟩ ∧
        List.Forall₂ KeepsPacket packets again ∧ writePcap again linkType = .ok b) := by
  constructor
  · rw [← writePcap_raises_iff]
    constructor
    · rintro ⟨detail, h⟩
      exact ⟨_, h, detail, rfl⟩
    · rintro ⟨_, h, detail, rfl⟩
      exact ⟨detail, h⟩
  · intro hclash hlink hfits
    obtain ⟨chosen, hchosen, hsame⟩ := exists_chosenLinkType hclash
    have hlink := hlink chosen hchosen
    have hheader : ∀ pkt ∈ packets, pkt.FitsHeader := fun pkt hpkt => (hfits pkt hpkt).fitsHeader
    exact ⟨pcapImage chosen packets, packets.map PcapPacket.requantised,
      writePcap_eq_ok.mpr ⟨chosen, hchosen, hsame, hlink, hheader, rfl⟩,
      readPcap_pcapImage_of_fitsRecord hlink hsame hfits, keepsPacket_of_fitsRecord hfits,
      writePcap_requantised hchosen hlink hsame hfits⟩

/-- The last half microsecond of a second carries into the next one, and a tie stays even. -/
theorem writePcap_roundTrip_carry :
    ∃ b again, writePcap [⟨3999999 / 2000000, 0, 60, 101, [1, 2, 3]⟩,
        ⟨5 / 2000000, 0, 4, 101, []⟩] none = .ok b ∧ readPcap b = ⟨again, none⟩ ∧
      List.Forall₂ KeepsPacket [⟨3999999 / 2000000, 0, 60, 101, [1, 2, 3]⟩,
        ⟨5 / 2000000, 0, 4, 101, []⟩] again ∧ writePcap again none = .ok b := by
  apply (writePcap_roundTrip _ none).2
  · simp [LinkTypeClash, chosenLinkType]
  · intro chosen hchosen
    cases hchosen
    decide
  · simp only [List.forall_mem_cons]
    exact ⟨⟨by decide, by decide, by norm_num, by norm_num⟩,
      ⟨by decide, by decide, by norm_num, by norm_num⟩, by simp⟩

end Rtpkit

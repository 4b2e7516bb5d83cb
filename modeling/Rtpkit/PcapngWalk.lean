import Rtpkit.FramingVisits
import Rtpkit.PcapngFields

namespace Rtpkit

open Outcome Chunk

section Walk

variable (data : Bytes)

/-- A Section Header Block begins at an offset. -/
def SectionAt (off : Nat) : Prop := slice data off (off + 4) = shbMagic

instance (off : Nat) : Decidable (SectionAt data off) := inferInstanceAs (Decidable (_ = _))

/-- The byte order that the byte-order magic of a section announces, if it is a known one. -/
def announcedOrder (off : Nat) : Option ByteOrder :=
  if slice data (off + 8) (off + 12) = bomBigEndian then some .big
  else if slice data (off + 8) (off + 12) = bomLittleEndian then some .little
  else none

/-- The byte order of the block at an offset, where the block before it has the order `before`. -/
def orderAt (before : Option ByteOrder) (off : Nat) : Option ByteOrder :=
  if SectionAt data off then announcedOrder data off else before

/-- Blocks begin at the start and behind every block that is complete by its declared length. -/
inductive BlockAt : Option ByteOrder → Nat → Prop
  | start : BlockAt none 0
  | next {before : Option ByteOrder} {order : ByteOrder} {off : Nat}
      (earlier : BlockAt before off)
      (room : off + minBlockSize ≤ data.length)
      (known : orderAt data before off = some order)
      (size : minBlockSize ≤ wordAt order data (off + 4))
      (fits : off + wordAt order data (off + 4) ≤ data.length) :
      BlockAt (some order) (off + wordAt order data (off + 4))

end Walk

section Reader

variable {data : Bytes} {state : PcapngState} {off : Nat}

theorem startSection_of_sectionAt {order : ByteOrder} (h : SectionAt data off)
    (horder : announcedOrder data off = some order) :
    startSection state data off = .ok { order := some order, interfaces := [] } := by
  unfold announcedOrder at horder
  refine (if_pos h).trans ?_
  dsimp only
  split at horder
  next hbig =>
    cases horder
    rw [if_pos hbig]
  next hbig =>
    rw [if_neg hbig]
    split at horder
    next hlittle =>
      cases horder
      rw [if_pos hlittle]
    next => cases horder

theorem startSection_of_not_announced (h : SectionAt data off)
    (horder : announcedOrder data off = none) :
    startSection state data off =
      .error (.pcapngInvalidByteOrderMagic (slice data (off + 8) (off + 12))) := by
  unfold announcedOrder at horder
  refine (if_pos h).trans ?_
  dsimp only
  split at horder
  next => cases horder
  next hbig =>
    split at horder
    next => cases horder
    next hlittle => rw [if_neg hbig, if_neg hlittle]

theorem startSection_of_not_sectionAt (h : ¬SectionAt data off) :
    startSection state data off = .ok state := if_neg h

/-- A block whose byte order is known has a header. -/
theorem readBlockHeader_of_order {order : ByteOrder} (hroom : off + minBlockSize ≤ data.length)
    (h : orderAt data state.order off = some order) :
    ∃ hdr, readBlockHeader state data off = .ok hdr ∧ hdr.order = order ∧
      hdr.blockTotalLength = wordAt order data (off + 4) := by
  simp only [minBlockSize, blockHeaderSize, blockTrailerSize] at hroom
  obtain ⟨state', hstart, horder⟩ :
      ∃ state', startSection state data off = .ok state' ∧ state'.order = some order := by
    unfold orderAt at h
    split at h
    next hsection => exact ⟨_, startSection_of_sectionAt hsection h, rfl⟩
    next hsection => exact ⟨state, startSection_of_not_sectionAt hsection, h⟩
  rw [readBlockHeader, hstart, bind_ok]
  rw [horder]
  dsimp only
  rw [unpackIn_I_eq_ok.mpr ⟨by omega, rfl⟩, bind_ok, unpackIn_I_eq_ok.mpr ⟨by omega, rfl⟩, bind_ok]
  exact ⟨_, rfl, rfl, rfl⟩

theorem readBlockHeader_of_no_order (h : orderAt data state.order off = none) :
    ∃ e, readBlockHeader state data off = .error e := by
  unfold orderAt at h
  split at h
  next hsection =>
    rw [readBlockHeader, startSection_of_not_announced hsection h]
    exact ⟨_, rfl⟩
  next hsection =>
    rw [readBlockHeader, startSection_of_not_sectionAt hsection, bind_ok, h]
    exact ⟨_, rfl⟩

theorem blockResult_order {hdr : BlockHeader} {body : Bytes} {after : PcapngState}
    {objection : Option Error} {item : Option PcapPacket}
    (h : blockResult hdr body = (after, objection, item)) : after.order = some hdr.order := by
  unfold blockResult at h
  split at h
  next =>
    cases h
    rfl
  next =>
    cases h
    rfl

/-- A unit at an offset is a block that is complete by its declared length. -/
theorem orderAt_of_unit {size : Nat} {after : PcapngState} {objection : Option Error}
    {item : Option PcapPacket}
    (h : pcapngHead state (data.drop off) = .unit size after objection item) :
    ∃ order, off + minBlockSize ≤ data.length ∧ orderAt data state.order off = some order ∧
      size = wordAt order data (off + 4) ∧ minBlockSize ≤ size ∧ off + size ≤ data.length ∧
      after.order = some order := by
  obtain ⟨hdr, hroom, hhdr, hsize, hmin, hle, hresult⟩ := pcapngHead_eq_unit.mp h
  rw [List.length_drop] at hroom hle
  have hpos : 0 < minBlockSize := by decide
  have hroom' : off + minBlockSize ≤ data.length := by omega
  rw [readBlockHeader_drop hroom'] at hhdr
  cases horder : orderAt data state.order off with
  | none =>
    obtain ⟨e, he⟩ := readBlockHeader_of_no_order horder
    cases he.symm.trans hhdr
  | some order =>
    obtain ⟨hdr', hhdr', rfl, hlength⟩ := readBlockHeader_of_order hroom' horder
    cases hhdr'.symm.trans hhdr
    exact ⟨_, hroom', rfl, by rw [← hsize, hlength], hmin, by omega, blockResult_order hresult⟩

theorem unit_of_orderAt {order : ByteOrder} (hroom : off + minBlockSize ≤ data.length)
    (horder : orderAt data state.order off = some order)
    (hsize : minBlockSize ≤ wordAt order data (off + 4))
    (hfits : off + wordAt order data (off + 4) ≤ data.length) :
    ∃ after objection item, pcapngHead state (data.drop off) =
      .unit (wordAt order data (off + 4)) after objection item ∧ after.order = some order := by
  obtain ⟨hdr, hhdr, rfl, hlength⟩ := readBlockHeader_of_order hroom horder
  rw [← readBlockHeader_drop hroom] at hhdr
  refine ⟨_, _, _, pcapngHead_eq_unit.mpr
    ⟨hdr, ?_, hhdr, hlength, hsize, ?_, rfl⟩, blockResult_order rfl⟩
  · rw [List.length_drop]
    omega
  · rw [List.length_drop]
    omega

theorem pcapngHead_fatal_iff :
    (∃ e, pcapngHead state (data.drop off) = .fatal e) ↔
      off + minBlockSize ≤ data.length ∧ orderAt data state.order off = none := by
  have hpos : 0 < minBlockSize := by decide
  have hlen : (data.drop off).length = data.length - off := List.length_drop
  unfold pcapngHead
  rw [hlen]
  by_cases hroom : off + minBlockSize ≤ data.length
  case neg =>
    rw [if_pos (by omega)]
    simp [hroom]
  rw [if_neg (by omega), readBlockHeader_drop hroom]
  cases horder : orderAt data state.order off with
  | none =>
    obtain ⟨e, he⟩ := readBlockHeader_of_no_order horder
    simp [he, hroom]
  | some order =>
    obtain ⟨hdr, hhdr, -⟩ := readBlockHeader_of_order hroom horder
    rw [hhdr]
    dsimp only
    split
    next => simp
    next => simp

/-- The reader begins its turns where blocks begin. -/
theorem blockAt_of_visits {strict : Bool}
    (h : pcapngFraming.Visits strict ⟨none, []⟩ data state off) : BlockAt data state.order off := by
  induction h with
  | start => exact .start
  | next earlier head quiet ih =>
    obtain ⟨order, hroom, horder, rfl, hmin, hfits, hafter⟩ := orderAt_of_unit head
    rw [hafter]
    exact .next ih hroom horder hmin hfits

/-- In lenient mode the reader comes to every block. -/
theorem visits_of_blockAt {order : Option ByteOrder} (h : BlockAt data order off) :
    ∃ state, pcapngFraming.Visits false ⟨none, []⟩ data state off ∧ state.order = order := by
  induction h with
  | start => exact ⟨_, .start, rfl⟩
  | next earlier room known size fits ih =>
    obtain ⟨state, hvisits, rfl⟩ := ih
    obtain ⟨after, objection, item, hhead, hafter⟩ := unit_of_orderAt room known size fits
    exact ⟨after, .next hvisits hhead (by simp), hafter⟩

theorem BlockAt.eq_zero (h : BlockAt data none off) : off = 0 := by
  cases h
  rfl

end Reader

/-- Lenient mode raises at the first block of no known byte order, and only there. -/
theorem failure_readPcapngLenient_iff {data : Bytes} (h : minBlockSize ≤ data.length) :
    (readPcapngLenient data).failure = none ↔ ∀ before off, BlockAt data before off →
      off + minBlockSize ≤ data.length → orderAt data before off ≠ none := by
  rw [readPcapngLenient, readPcapngMode_eq_run false h, Option.eq_none_iff_forall_ne_some]
  constructor
  · intro hnone before off hblock hroom horder
    obtain ⟨state, hvisits, rfl⟩ := visits_of_blockAt hblock
    obtain ⟨e, he⟩ := pcapngHead_fatal_iff.mpr ⟨hroom, horder⟩
    refine hnone e (Framing.failure_run_iff.mpr
      ⟨state, off, hvisits, ?_, Head.stops_lenient_iff.mpr he⟩)
    exact List.drop_eq_nil_iff.not.mpr (by simp only [minBlockSize, blockHeaderSize] at hroom; omega)
  · intro hknown e hfailure
    obtain ⟨state, off, hvisits, -, hstop⟩ := Framing.failure_run_iff.mp hfailure
    obtain ⟨hroom, horder⟩ := pcapngHead_fatal_iff.mp ⟨e, Head.stops_lenient_iff.mp hstop⟩
    exact hknown _ off (blockAt_of_visits hvisits) hroom horder

/-- A file that starts with a section of a known byte order is read without an exception in
lenient mode exactly when every later section announces a known byte order as well. -/
theorem readPcapngLenient_quiet_iff {data : Bytes} (hlen : minBlockSize ≤ data.length)
    (hsection : SectionAt data 0) (hknown : announcedOrder data 0 ≠ none) :
    (readPcapngLenient data).failure = none ↔ ∀ before off, BlockAt data before off → 0 < off →
      off + minBlockSize ≤ data.length → SectionAt data off → announcedOrder data off ≠ none := by
  rw [failure_readPcapngLenient_iff hlen]
  constructor
  · intro horders before off hblock _ hroom hlater
    have horder := horders before off hblock hroom
    rwa [orderAt, if_pos hlater] at horder
  · intro hlaters before off hblock hroom
    by_cases hlater : SectionAt data off
    · rw [orderAt, if_pos hlater]
      rcases Nat.eq_zero_or_pos off with rfl | hpos
      · exact hknown
      · exact hlaters before off hblock hpos hroom hlater
    · rw [orderAt, if_neg hlater]
      rintro rfl
      obtain rfl := hblock.eq_zero
      exact hlater hsection

def sectionHeader : Bytes :=
  [0x0a, 0x0d, 0x0d, 0x0a, 28, 0, 0, 0, 0x4d, 0x3c, 0x2b, 0x1a, 1, 0, 0, 0,
    0xff, 0xff, 0xff, 0xff, 0xff, 0xff, 0xff, 0xff, 28, 0, 0, 0]

theorem readPcapngLenient_quiet_iff_sections :
    (readPcapngLenient (sectionHeader ++ sectionHeader)).failure = none ∧
      announcedOrder (sectionHeader ++ sectionHeader) 28 ≠ none := by
  have hquiet : (readPcapngLenient (sectionHeader ++ sectionHeader)).failure = none := by
    decide +kernel
  have hsecond : BlockAt (sectionHeader ++ sectionHeader) (some .little) 28 :=
    .next .start (by decide) (by decide) (by decide) (by decide)
  exact ⟨hquiet, (readPcapngLenient_quiet_iff (by decide) (by decide) (by decide)).mp hquiet _ _
    hsecond (by decide) (by decide) (by decide)⟩

/-- A later section without a byte-order magic makes lenient mode raise. -/
theorem later_section_raises :
    minBlockSize ≤ (sectionHeader ++ shbMagic ++ zeros 8).length ∧
      SectionAt (sectionHeader ++ shbMagic ++ zeros 8) 0 ∧
      announcedOrder (sectionHeader ++ shbMagic ++ zeros 8) 0 = some .little ∧
      (readPcapngLenient (sectionHeader ++ shbMagic ++ zeros 8)).failure =
        some (.pcapngInvalidByteOrderMagic [0, 0, 0, 0]) := by
  decide +kernel

end Rtpkit

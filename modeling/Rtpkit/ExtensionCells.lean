import Rtpkit.CellStream
import Rtpkit.Extension

namespace Rtpkit

open Outcome Chunk

def element (id : Nat) (data : Bytes) : ExtensionElement := { id := id, data := data }

def oneByteHeader : Bytes → Option (Nat × Nat)
  | [] => none
  | b :: _ =>
    if (b.toNat >>> 4) &&& 0x0F = 15 then none
    else some ((b.toNat >>> 4) &&& 0x0F, (b.toNat &&& 0x0F) + 1)

def twoByteHeader : Bytes → Option (Nat × Nat)
  | b :: n :: _ => some (b.toNat, n.toNat)
  | _ => none

def oneByteFormat : CellFormat UInt8 Nat ExtensionElement where
  isPadding b := b = 0
  headerLength := 1
  header := oneByteHeader
  item := element
  headerLength_pos := by decide
  header_append := by
    intro x hx y
    cases x with
    | nil => cases hx
    | cons b x => rfl
  header_short := by
    intro x hx
    cases x with
    | nil => rfl
    | cons b x => simp at hx

def twoByteFormat : CellFormat UInt8 Nat ExtensionElement where
  isPadding b := b = 0
  headerLength := 2
  header := twoByteHeader
  item := element
  headerLength_pos := by decide
  header_append := by
    intro x hx y
    rcases x with _ | ⟨b, _ | ⟨n, x⟩⟩
    · cases hx
    · simp at hx
    · rfl
  header_short := by
    intro x hx
    rcases x with _ | ⟨b, _ | ⟨n, x⟩⟩
    · rfl
    · rfl
    · simp only [List.length_cons] at hx
      omega

/-- The elements of an unrecognised profile end before they begin. -/
def unknownFormat : CellFormat UInt8 Nat ExtensionElement where
  isPadding _ := false
  headerLength := 1
  header _ := none
  item := element
  headerLength_pos := by decide
  header_append _ _ := rfl
  header_short _ := rfl

def ExtensionProfile.format : ExtensionProfile → CellFormat UInt8 Nat ExtensionElement
  | .unknown => unknownFormat
  | .oneByte => oneByteFormat
  | .twoByte => twoByteFormat

/-- A loop whose turns do what the head of the bytes left calls for reads the cells there. -/
theorem cells_of_turns {format : CellFormat UInt8 Nat ExtensionElement} {data : Bytes}
    (loop : Nat → Except Error (List ExtensionElement))
    (hpast : ∀ pos, data.length ≤ pos → loop pos = .ok [])
    (hturn : ∀ pos, pos < data.length → loop pos =
      match format.head (data.drop pos) with
      | .unit size _ _ item => (item.toList ++ ·) <$> loop (pos + size)
      | _ => .ok [])
    (pos : Nat) : loop pos = .ok (format.framing.run false () (data.drop pos)).items := by
  refine Framing.run_drop_eq (f := fun _ pos => loop pos)
    (fun y : Yielded ExtensionElement Unit => (.ok y.items : Except Error (List ExtensionElement)))
    (fun items rest => (items ++ ·) <$> rest) (fun _ _ => rfl) ?_ ?_ () pos
  · exact fun _ pos hpast' => hpast pos hpast'
  · intro _ pos hlt
    rw [hturn pos hlt, CellFormat.framing_head]
    cases format.head (data.drop pos) with
    | unit size after objection item => rfl
    | cut e => rfl
    | fatal e => rfl

section Turn

variable {data : Bytes} {pos : Nat} (h : pos < data.length)

include h

theorem exists_head : ∃ b tail, data.drop pos = b :: tail ∧ getByte data pos = .ok b.toNat ∧
    tail.length = data.length - (pos + 1) :=
  ⟨data[pos], data.drop (pos + 1), List.drop_eq_getElem_cons h,
    getByte_eq_ok.mpr ⟨_, List.getElem?_eq_getElem h, rfl⟩, List.length_drop⟩

end Turn

theorem nil_append_map (x : Except Error (List ExtensionElement)) : ([] ++ ·) <$> x = x := by
  cases x with
  | error e => rfl
  | ok xs => rfl

theorem toNat_eq_zero {b : UInt8} : b.toNat = 0 ↔ b = 0 := by
  rw [← UInt8.toNat_inj]
  rfl

theorem parseOneByte_eq_run (data : Bytes) (pos : Nat) :
    parseOneByte data pos = .ok (oneByteFormat.framing.run false () (data.drop pos)).items := by
  refine cells_of_turns (parseOneByte data) ?_ ?_ pos
  · intro pos hpast
    rw [parseOneByte, dif_neg (by omega)]
    rfl
  · intro pos hlt
    obtain ⟨b, tail, hdrop, hbyte, hlen⟩ := exists_head hlt
    rw [parseOneByte, dif_pos hlt, hbyte, bind_ok, hdrop]
    by_cases hzero : b = 0
    · rw [if_pos (toNat_eq_zero.mpr hzero), CellFormat.head_padding (decide_eq_true hzero)]
      exact (nil_append_map _).symm
    rw [if_neg (mt toNat_eq_zero.mp hzero)]
    have hno : oneByteFormat.isPadding b = false := decide_eq_false hzero
    dsimp only
    by_cases hstop : (b.toNat >>> 4) &&& 0x0F = 15
    · rw [if_pos hstop, CellFormat.head_stop hno (if_pos hstop)]
      rfl
    have hheader : oneByteFormat.header (b :: tail) =
        some ((b.toNat >>> 4) &&& 0x0F, (b.toNat &&& 0x0F) + 1) := if_neg hstop
    rw [if_neg hstop, CellFormat.head_cell hno hheader]
    by_cases hover : data.length < pos + 1 + ((b.toNat &&& 0x0F) + 1)
    · rw [if_pos hover, if_pos (by simp only [oneByteFormat, List.length_cons]; omega)]
      rfl
    · rw [if_neg hover, if_neg (by simp only [oneByteFormat, List.length_cons]; omega), ← hdrop,
        slice_drop]
      simp only [oneByteFormat, Nat.add_assoc]
      rfl

theorem parseTwoByte_eq_run (data : Bytes) (pos : Nat) :
    parseTwoByte data pos = .ok (twoByteFormat.framing.run false () (data.drop pos)).items := by
  refine cells_of_turns (parseTwoByte data) ?_ ?_ pos
  · intro pos hpast
    rw [parseTwoByte, dif_neg (by omega)]
    rfl
  · intro pos hlt
    obtain ⟨b, tail, hdrop, hbyte, hlen⟩ := exists_head hlt
    rw [parseTwoByte, dif_pos hlt, hbyte, bind_ok, hdrop]
    by_cases hzero : b = 0
    · rw [if_pos (toNat_eq_zero.mpr hzero), CellFormat.head_padding (decide_eq_true hzero)]
      exact (nil_append_map _).symm
    rw [if_neg (mt toNat_eq_zero.mp hzero)]
    have hno : twoByteFormat.isPadding b = false := decide_eq_false hzero
    dsimp only
    by_cases hend : data.length ≤ pos + 1
    · have hnil : tail = [] := List.eq_nil_of_length_eq_zero (by omega)
      rw [if_pos hend, hnil, CellFormat.head_stop hno rfl]
      rfl
    obtain ⟨n, more, hmore, hnext, hlen'⟩ := exists_head (Nat.lt_of_not_le hend)
    have htail : tail = n :: more := by
      rw [← hmore, ← List.drop_drop, hdrop]
      rfl
    rw [if_neg hend, hnext, bind_ok, htail, CellFormat.head_cell hno rfl]
    by_cases hover : data.length < pos + 1 + 1 + n.toNat
    · rw [if_pos hover, if_pos (by simp only [twoByteFormat, List.length_cons]; omega)]
      rfl
    · rw [if_neg hover, if_neg (by simp only [twoByteFormat, List.length_cons]; omega), ← htail,
        ← hdrop, slice_drop]
      rw [show pos + 1 + 1 + n.toNat = pos + (2 + n.toNat) by omega]
      rfl

/-- The elements of an extension are the cells of its body, in the format of its profile. -/
theorem parseExtensionElements_eq (ext : HeaderExtension) :
    parseExtensionElements ext =
      .ok ((classifyProfile ext.profile).format.framing.run false () ext.data).items := by
  unfold parseExtensionElements
  cases classifyProfile ext.profile with
  | unknown =>
    cases hdata : ext.data with
    | nil => rw [Framing.run_nil]; rfl
    | cons b tail =>
      have hcut : unknownFormat.head (b :: tail) = .cut () := CellFormat.head_stop rfl rfl
      rw [ExtensionProfile.format, Framing.run_cut (by simp) hcut]
      rfl
  | oneByte => exact parseOneByte_eq_run ext.data 0
  | twoByte => exact parseTwoByte_eq_run ext.data 0

end Rtpkit

import Rtpkit.ExtensionRoundTrip
import Rtpkit.FramingVisits

namespace Rtpkit

open Outcome Chunk ExtensionProfile

/-- The positions of a one-byte body at which padding or an element begins, when every element
before has an ID other than 15 and is all there. -/
inductive ElementStart (body : Bytes) : Nat → Prop
  | first : ElementStart body 0
  | afterPadding {pos : Nat} (earlier : ElementStart body pos) (zero : body[pos]? = some 0) :
      ElementStart body (pos + 1)
  | afterElement {pos : Nat} {b : UInt8} (earlier : ElementStart body pos)
      (byte : body[pos]? = some b) (notPadding : b ≠ 0) (notReserved : b.toNat < 0xF0)
      (complete : pos + 2 + b.toNat % 16 ≤ body.length) :
      ElementStart body (pos + 2 + b.toNat % 16)

/-- No element of ID 0 is all there: a byte below 16 where an element begins is padding or the
beginning of more than the body holds. -/
def NoElementZero (body : Bytes) : Prop :=
  ∀ pos b, ElementStart body pos → body[pos]? = some b → b ≠ 0 → b.toNat < 16 →
    body.length < pos + 2 + b.toNat % 16

/-- The elements of an extension have a place in its format, and survive being built and read
again. -/
def YieldsLegal (ext : HeaderExtension) : Prop :=
  ∃ elements, parseExtensionElements ext = .ok elements ∧
    (∀ elem ∈ elements, (classifyProfile ext.profile).Legal elem) ∧
    ∃ rebuilt, buildHeaderExtension elements (classifyProfile ext.profile) = .ok rebuilt ∧
      parseExtensionElements rebuilt = .ok elements

theorem yieldsLegal_iff_forall {ext : HeaderExtension} (h : classifyProfile ext.profile ≠ .unknown) :
    YieldsLegal ext ↔
      ∀ elem ∈ ((classifyProfile ext.profile).format.framing.run false () ext.data).items,
        (classifyProfile ext.profile).Legal elem := by
  have hparse := parseExtensionElements_eq ext
  constructor
  · rintro ⟨elements, hread, hlegal, -⟩
    cases hread.symm.trans hparse
    exact hlegal
  · intro hlegal
    exact ⟨_, hparse, hlegal, _, buildHeaderExtension_eq_ok.mpr ⟨h, hlegal, rfl⟩,
      parse_image h hlegal⟩

theorem byte_halves (b : UInt8) :
    (b.toNat >>> 4) &&& 0x0F = b.toNat / 16 ∧ b.toNat &&& 0x0F = b.toNat % 16 := by
  have hlt := b.toNat_lt
  have hlow : b.toNat &&& 0x0F = b.toNat % 16 := Nat.and_two_pow_sub_one_eq_mod b.toNat 4
  have hhigh : (b.toNat >>> 4) &&& 0x0F = b.toNat / 16 % 16 := by
    rw [Nat.shiftRight_eq_div_pow]
    exact Nat.and_two_pow_sub_one_eq_mod _ 4
  exact ⟨by omega, hlow⟩

theorem getElem?_of_drop {body tail : Bytes} {pos : Nat} {b : UInt8}
    (h : body.drop pos = b :: tail) : body[pos]? = some b := by
  have hhead := congrArg List.head? h
  rwa [List.head?_drop] at hhead

theorem drop_of_getElem? {body : Bytes} {pos : Nat} {b : UInt8} (h : body[pos]? = some b) :
    body.drop pos = b :: body.drop (pos + 1) := by
  obtain ⟨hlt, rfl⟩ := List.getElem?_eq_some_iff.mp h
  exact List.drop_eq_getElem_cons hlt

theorem oneByteHeader_eq_some {b : UInt8} (tail : Bytes) {id n : Nat} :
    oneByteHeader (b :: tail) = some (id, n) ↔
      b.toNat < 0xF0 ∧ id = b.toNat / 16 ∧ n = b.toNat % 16 + 1 := by
  obtain ⟨hhigh, hlow⟩ := byte_halves b
  have hlt := b.toNat_lt
  rw [oneByteHeader, hhigh, hlow]
  split
  next hreserved =>
    constructor
    · intro h
      cases h
    · rintro ⟨hbyte, -, -⟩
      omega
  next hreserved =>
    constructor
    · intro h
      cases h
      exact ⟨by omega, rfl, rfl⟩
    · rintro ⟨-, rfl, rfl⟩
      rfl

/-- What a unit of a one-byte body is. -/
theorem oneByte_head_eq_unit {body : Bytes} {pos size : Nat} {objection : Option Unit}
    {item : Option ExtensionElement} :
    oneByteFormat.head (body.drop pos) = .unit size () objection item ↔ ∃ b,
      body[pos]? = some b ∧ objection = none ∧ ((b = 0 ∧ size = 1 ∧ item = none) ∨
        (b ≠ 0 ∧ b.toNat < 0xF0 ∧ size = 2 + b.toNat % 16 ∧ pos + size ≤ body.length ∧
          item = some (element (b.toNat / 16) (slice body (pos + 1) (pos + size))))) := by
  rw [CellFormat.head_eq_unit]
  constructor
  · rintro ⟨b, tail, hdrop, hquiet, hcases⟩
    have hbyte := getElem?_of_drop hdrop
    have hlt := (List.getElem?_eq_some_iff.mp hbyte).1
    refine ⟨b, hbyte, hquiet, ?_⟩
    rcases hcases with ⟨hpad, hsize, hitem⟩ | ⟨hno, id, n, hheader, hsize, hle, hitem⟩
    · exact .inl ⟨of_decide_eq_true hpad, hsize, hitem⟩
    · rw [hdrop] at hheader
      obtain ⟨hreserved, rfl, rfl⟩ := (oneByteHeader_eq_some tail).mp hheader
      rw [List.length_drop] at hle
      rw [slice_drop] at hitem
      exact .inr ⟨of_decide_eq_false hno, hreserved, by simp only [oneByteFormat] at hsize; omega,
        by omega, hitem⟩
  · rintro ⟨b, hbyte, hquiet, hcases⟩
    have hdrop := drop_of_getElem? hbyte
    refine ⟨b, _, hdrop, hquiet, ?_⟩
    rcases hcases with ⟨hzero, hsize, hitem⟩ | ⟨hno, hreserved, hsize, hle, hitem⟩
    · exact .inl ⟨decide_eq_true hzero, hsize, hitem⟩
    · refine .inr ⟨decide_eq_false hno, b.toNat / 16, b.toNat % 16 + 1, ?_, ?_, ?_, ?_⟩
      · rw [hdrop]
        exact (oneByteHeader_eq_some (body.drop (pos + 1))).mpr ⟨hreserved, rfl, rfl⟩
      · simp only [oneByteFormat]
        omega
      · rw [List.length_drop]
        omega
      · rw [slice_drop]
        exact hitem

/-- The scanner of a one-byte body begins its turns where padding and elements begin. -/
theorem visits_iff_elementStart {body : Bytes} {s : Unit} {pos : Nat} :
    oneByteFormat.framing.Visits false () body s pos ↔ ElementStart body pos := by
  constructor
  · intro h
    induction h with
    | start => exact .first
    | next earlier head quiet ih =>
      obtain ⟨b, hbyte, -, ⟨rfl, rfl, -⟩ | ⟨hno, hreserved, rfl, hle, -⟩⟩ :=
        oneByte_head_eq_unit.mp head
      · exact ih.afterPadding hbyte
      · rw [← Nat.add_assoc] at hle ⊢
        exact ih.afterElement hbyte hno hreserved hle
  · intro h
    induction h with
    | first => exact .start
    | afterPadding earlier zero ih =>
      exact ih.next (oneByte_head_eq_unit.mpr ⟨0, zero, rfl, .inl ⟨rfl, rfl, rfl⟩⟩) (by simp)
    | @afterElement pos b earlier byte notPadding notReserved complete ih =>
      rw [Nat.add_assoc] at complete ⊢
      exact ih.next (oneByte_head_eq_unit.mpr ⟨b, byte, rfl, .inr
        ⟨notPadding, notReserved, rfl, complete, rfl⟩⟩) (by simp)

/-- The elements of a one-byte body stand where elements begin. -/
theorem mem_oneByte_items {body : Bytes} {elem : ExtensionElement} :
    elem ∈ (oneByteFormat.framing.run false () body).items ↔ ∃ pos b, ElementStart body pos ∧
      body[pos]? = some b ∧ b ≠ 0 ∧ b.toNat < 0xF0 ∧ pos + (2 + b.toNat % 16) ≤ body.length ∧
        elem = element (b.toNat / 16) (slice body (pos + 1) (pos + (2 + b.toNat % 16))) := by
  rw [Framing.mem_run_items]
  constructor
  · rintro ⟨_, pos, size, _, objection, hvisits, hhead, -⟩
    obtain ⟨b, hbyte, -, ⟨-, -, hitem⟩ | ⟨hno, hreserved, rfl, hle, hitem⟩⟩ :=
      oneByte_head_eq_unit.mp hhead
    · cases hitem
    · cases hitem
      exact ⟨pos, b, visits_iff_elementStart.mp hvisits, hbyte, hno, hreserved, hle, rfl⟩
  · rintro ⟨pos, b, hstart, hbyte, hno, hreserved, hle, rfl⟩
    exact ⟨(), pos, _, (), none, visits_iff_elementStart.mpr hstart,
      oneByte_head_eq_unit.mpr ⟨b, hbyte, rfl, .inr ⟨hno, hreserved, rfl, hle, rfl⟩⟩, by simp⟩

theorem legal_oneByte_iff {b : UInt8} {content : Bytes} (hreserved : b.toNat < 0xF0)
    (hlen : content.length = b.toNat % 16 + 1) :
    Legal .oneByte (element (b.toNat / 16) content) ↔ ¬b.toNat < 16 := by
  have hlt := b.toNat_lt
  simp only [Legal, element, hlen]
  omega

theorem oneByte_legal_iff (body : Bytes) :
    (∀ elem ∈ (oneByteFormat.framing.run false () body).items, Legal .oneByte elem) ↔
      NoElementZero body := by
  have hlength : ∀ pos (b : UInt8), pos + (2 + b.toNat % 16) ≤ body.length →
      (slice body (pos + 1) (pos + (2 + b.toNat % 16))).length = b.toNat % 16 + 1 := by
    intro pos b hle
    rw [length_slice]
    omega
  constructor
  · intro h pos b hstart hbyte hno hsmall
    by_contra hover
    have hle : pos + (2 + b.toNat % 16) ≤ body.length := by omega
    have hreserved : b.toNat < 0xF0 := by omega
    have hlegal := h _ (mem_oneByte_items.mpr ⟨pos, b, hstart, hbyte, hno, hreserved, hle, rfl⟩)
    exact (legal_oneByte_iff hreserved (hlength pos b hle)).mp hlegal hsmall
  · intro h elem helem
    obtain ⟨pos, b, hstart, hbyte, hno, hreserved, hle, rfl⟩ := mem_oneByte_items.mp helem
    refine (legal_oneByte_iff hreserved (hlength pos b hle)).mpr fun hsmall => ?_
    have hover := h pos b hstart hbyte hno hsmall
    omega

/-- Every element of a two-byte body has a place in the format. -/
theorem twoByte_legal (body : Bytes) :
    ∀ elem ∈ (twoByteFormat.framing.run false () body).items, Legal .twoByte elem := by
  intro elem helem
  obtain ⟨_, pos, size, _, objection, -, hhead, -⟩ := Framing.mem_run_items.mp helem
  obtain ⟨b, tail, hdrop, -, ⟨-, -, hitem⟩ | ⟨hno, id, n, hheader, rfl, hle, hitem⟩⟩ :=
    CellFormat.head_eq_unit.mp hhead
  · cases hitem
  · cases hitem
    rw [hdrop] at hheader hle ⊢
    cases tail with
    | nil => cases hheader
    | cons length content =>
      cases hheader
      have hb := b.toNat_lt
      have hn := length.toNat_lt
      have hzero : b.toNat ≠ 0 := mt toNat_eq_zero.mp (of_decide_eq_false hno)
      simp only [twoByteFormat, element, Legal, length_slice]
      omega

/-- The elements of an extension are legal exactly when no element of a one-byte body has the ID
of padding. -/
theorem yieldsLegal_iff (ext : HeaderExtension) (h : classifyProfile ext.profile ≠ .unknown) :
    YieldsLegal ext ↔ (classifyProfile ext.profile = .oneByte → NoElementZero ext.data) := by
  rw [yieldsLegal_iff_forall h]
  cases hprofile : classifyProfile ext.profile with
  | unknown => exact absurd hprofile h
  | oneByte =>
    rw [ExtensionProfile.format, oneByte_legal_iff]
    exact ⟨fun hlegal _ => hlegal, fun hlegal => hlegal rfl⟩
  | twoByte => exact iff_of_true (twoByte_legal ext.data) (by simp)

/-- A byte below 16 that begins an element does no harm where the element is cut off. -/
theorem yieldsLegal_iff_cut : NoElementZero [0x10, 0xAA, 0x07, 0xBB] := by
  have hread : parseExtensionElements ⟨0xBEDE, 1, [0x10, 0xAA, 0x07, 0xBB]⟩ =
      .ok [⟨1, [0xAA]⟩] := by
    decide +kernel
  have hbuild : buildHeaderExtension [⟨1, [0xAA]⟩] .oneByte =
      .ok ⟨0xBEDE, 1, [0x10, 0xAA, 0, 0]⟩ := by
    decide +kernel
  refine (yieldsLegal_iff ⟨0xBEDE, 1, [0x10, 0xAA, 0x07, 0xBB]⟩ (by decide)).mp ?_ rfl
  refine ⟨_, hread, ?_, _, hbuild, by decide +kernel⟩
  intro elem helem
  rw [List.mem_singleton.mp helem]
  exact (by decide : (1 ≤ (1 : Int) ∧ (1 : Int) ≤ 14) ∧ 1 ≤ 1 ∧ 1 ≤ 16)

/-- The byte 0x01 where an element begins gives an element of ID 0. -/
theorem elementZero_reported :
    parseExtensionElements ⟨0xBEDE, 1, [0x01, 0xAA, 0xBB, 0x00]⟩ = .ok [⟨0, [0xAA, 0xBB]⟩] ∧
      ¬YieldsLegal ⟨0xBEDE, 1, [0x01, 0xAA, 0xBB, 0x00]⟩ := by
  have hread : parseExtensionElements ⟨0xBEDE, 1, [0x01, 0xAA, 0xBB, 0x00]⟩ =
      .ok [⟨0, [0xAA, 0xBB]⟩] := by
    decide +kernel
  refine ⟨hread, ?_⟩
  rintro ⟨elements, helements, hlegal, -⟩
  cases hread.symm.trans helements
  obtain ⟨⟨hid, -⟩, -⟩ := hlegal ⟨0, [0xAA, 0xBB]⟩ (List.mem_singleton.mpr rfl)
  exact absurd hid (by decide)

end Rtpkit

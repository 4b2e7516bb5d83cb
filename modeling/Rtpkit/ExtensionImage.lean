import Rtpkit.ExtensionCells

namespace Rtpkit

open Outcome Chunk Alignment

namespace ExtensionProfile

/-- The value of `profile` that `build_header_extension` writes. -/
def value : ExtensionProfile → Int
  | .unknown => 0
  | .oneByte => oneByteMagic
  | .twoByte => twoByteValue

/-- The elements that have a place in a format. -/
def Legal : ExtensionProfile → ExtensionElement → Prop
  | .unknown, _ => False
  | .oneByte, elem => (1 ≤ elem.id ∧ elem.id ≤ 14) ∧ 1 ≤ elem.data.length ∧ elem.data.length ≤ 16
  | .twoByte, elem => (1 ≤ elem.id ∧ elem.id ≤ 255) ∧ elem.data.length ≤ 255

def elementWire : ExtensionProfile → ExtensionElement → Bytes
  | .unknown, _ => []
  | .oneByte, elem => UInt8.ofNat ((elem.id.toNat <<< 4) ||| (elem.data.length - 1)) :: elem.data
  | .twoByte, elem => UInt8.ofNat elem.id.toNat :: UInt8.ofNat elem.data.length :: elem.data

def elementsWire (profile : ExtensionProfile) (elements : List ExtensionElement) : Bytes :=
  (elements.map profile.elementWire).flatten

def body (profile : ExtensionProfile) (elements : List ExtensionElement) : Bytes :=
  profile.elementsWire elements ++ zeros (fill 4 (profile.elementsWire elements).length)

def image (profile : ExtensionProfile) (elements : List ExtensionElement) : HeaderExtension where
  profile := profile.value
  length := ((profile.body elements).length / 4 : Nat)
  data := profile.body elements

end ExtensionProfile

open ExtensionProfile

theorem buildOneByteElement_eq_ok {elem : ExtensionElement} {b : Bytes} :
    buildOneByteElement elem = .ok b ↔ Legal .oneByte elem ∧ b = elementWire .oneByte elem := by
  simp only [buildOneByteElement, bind_eq_ok, require_eq_ok, pure_eq_ok, exists_const, Legal,
    elementWire, and_assoc, eq_comm (a := b)]

theorem buildTwoByteElement_eq_ok {elem : ExtensionElement} {b : Bytes} :
    buildTwoByteElement elem = .ok b ↔ Legal .twoByte elem ∧ b = elementWire .twoByte elem := by
  simp only [buildTwoByteElement, bind_eq_ok, require_eq_ok, pure_eq_ok, exists_const, Legal,
    elementWire, and_assoc, eq_comm (a := b)]

theorem ExtensionProfile.length_body_mod (profile : ExtensionProfile)
    (elements : List ExtensionElement) : (profile.body elements).length % 4 = 0 := by
  rw [body, List.length_append, length_zeros]
  exact add_fill_mod 4 _

theorem buildOneByte_eq_ok {elements : List ExtensionElement} {b : Bytes} :
    buildOneByte elements = .ok b ↔
      (∀ elem ∈ elements, Legal .oneByte elem) ∧ b = elementsWire .oneByte elements := by
  rw [buildOneByte, bind_eq_ok]
  constructor
  · rintro ⟨parts, hparts, h⟩
    obtain ⟨hlegal, rfl⟩ := (mapM_eq_ok_of_spec fun _ _ => buildOneByteElement_eq_ok).mp hparts
    exact ⟨hlegal, (pure_eq_ok.mp h).symm⟩
  · rintro ⟨hlegal, rfl⟩
    exact ⟨_, (mapM_eq_ok_of_spec fun _ _ => buildOneByteElement_eq_ok).mpr ⟨hlegal, rfl⟩, rfl⟩

theorem buildTwoByte_eq_ok {elements : List ExtensionElement} {b : Bytes} :
    buildTwoByte elements = .ok b ↔
      (∀ elem ∈ elements, Legal .twoByte elem) ∧ b = elementsWire .twoByte elements := by
  rw [buildTwoByte, bind_eq_ok]
  constructor
  · rintro ⟨parts, hparts, h⟩
    obtain ⟨hlegal, rfl⟩ := (mapM_eq_ok_of_spec fun _ _ => buildTwoByteElement_eq_ok).mp hparts
    exact ⟨hlegal, (pure_eq_ok.mp h).symm⟩
  · rintro ⟨hlegal, rfl⟩
    exact ⟨_, (mapM_eq_ok_of_spec fun _ _ => buildTwoByteElement_eq_ok).mpr ⟨hlegal, rfl⟩, rfl⟩

/-- The image by the padding that the builder computes. -/
theorem ExtensionProfile.image_eq (profile : ExtensionProfile) (elements : List ExtensionElement) :
    profile.image elements =
      let body := profile.elementsWire elements ++
        zeros (alignPad (profile.elementsWire elements).length)
      { profile := profile.value, length := (body.length / 4 : Nat), data := body } := by
  rw [alignPad_eq]
  rfl

/-- Exactly the legal elements of a known format are built, into their image. -/
theorem buildHeaderExtension_eq_ok {elements : List ExtensionElement} {profile : ExtensionProfile}
    {ext : HeaderExtension} : buildHeaderExtension elements profile = .ok ext ↔
      profile ≠ .unknown ∧ (∀ elem ∈ elements, profile.Legal elem) ∧
        ext = profile.image elements := by
  cases profile with
  | unknown =>
    constructor
    · intro h
      cases h
    · rintro ⟨h, -⟩
      exact absurd rfl h
  | oneByte =>
    rw [image_eq]
    refine bind_eq_ok.trans ⟨?_, ?_⟩
    · rintro ⟨b, hb, h⟩
      obtain ⟨hlegal, rfl⟩ := buildOneByte_eq_ok.mp hb
      exact ⟨by decide, hlegal, (pure_eq_ok.mp h).symm⟩
    · rintro ⟨-, hlegal, rfl⟩
      exact ⟨_, buildOneByte_eq_ok.mpr ⟨hlegal, rfl⟩, rfl⟩
  | twoByte =>
    rw [image_eq]
    refine bind_eq_ok.trans ⟨?_, ?_⟩
    · rintro ⟨b, hb, h⟩
      obtain ⟨hlegal, rfl⟩ := buildTwoByte_eq_ok.mp hb
      exact ⟨by decide, hlegal, (pure_eq_ok.mp h).symm⟩
    · rintro ⟨-, hlegal, rfl⟩
      exact ⟨_, buildTwoByte_eq_ok.mpr ⟨hlegal, rfl⟩, rfl⟩

/-- The two halves of the first byte of a one-byte cell. -/
theorem cellByte_halves : ∀ id < 15, ∀ n < 16,
    (UInt8.ofNat ((id <<< 4) ||| n)).toNat >>> 4 &&& 0x0F = id ∧
      (UInt8.ofNat ((id <<< 4) ||| n)).toNat &&& 0x0F = n := by
  decide

theorem carries_oneByte {elem : ExtensionElement} (h : Legal .oneByte elem) :
    oneByteFormat.Carries (elementWire .oneByte elem) elem := by
  obtain ⟨⟨hid, hid'⟩, hlen, hlen'⟩ := h
  obtain ⟨hhigh, hlow⟩ := cellByte_halves elem.id.toNat (by omega) (elem.data.length - 1) (by omega)
  refine ⟨⟨_, elem.data, rfl, ?_⟩, ⟨elem.id.toNat, ?_, ?_⟩, Nat.succ_le_succ (Nat.zero_le _)⟩
  · refine decide_eq_false fun hzero => ?_
    rw [hzero] at hhigh
    have hnone : (0 : UInt8).toNat >>> 4 &&& 0x0F = 0 := rfl
    omega
  · have hlength : (elementWire .oneByte elem).length - oneByteFormat.headerLength =
        elem.data.length - 1 + 1 := by
      simp only [elementWire, oneByteFormat, List.length_cons]
      omega
    rw [hlength]
    simp only [oneByteFormat, elementWire, oneByteHeader, hhigh, hlow]
    exact if_neg (by omega)
  · simp only [oneByteFormat, elementWire, element, List.drop_succ_cons, List.drop_zero,
      Int.toNat_of_nonneg (show 0 ≤ elem.id by omega)]

theorem carries_twoByte {elem : ExtensionElement} (h : Legal .twoByte elem) :
    twoByteFormat.Carries (elementWire .twoByte elem) elem := by
  obtain ⟨⟨hid, hid'⟩, hlen⟩ := h
  have hidByte : (UInt8.ofNat elem.id.toNat).toNat = elem.id.toNat :=
    UInt8.toNat_ofNat_of_lt' (by simp only [UInt8.size]; omega)
  have hlenByte : (UInt8.ofNat elem.data.length).toNat = elem.data.length :=
    UInt8.toNat_ofNat_of_lt' (by simp only [UInt8.size]; omega)
  refine ⟨⟨_, _, rfl, ?_⟩, ⟨elem.id.toNat, ?_, ?_⟩, by simp [elementWire, twoByteFormat]⟩
  · refine decide_eq_false fun hzero => ?_
    rw [hzero] at hidByte
    have hnone : (0 : UInt8).toNat = 0 := rfl
    omega
  · simp only [twoByteFormat, elementWire, twoByteHeader, hidByte, hlenByte, List.length_cons]
    rfl
  · simp only [twoByteFormat, elementWire, element, List.drop_succ_cons, List.drop_zero,
      Int.toNat_of_nonneg (show 0 ≤ elem.id by omega)]

/-- A built element is a cell of its format. -/
theorem carries_elementWire {profile : ExtensionProfile} {elem : ExtensionElement}
    (h : profile.Legal elem) : profile.format.Carries (profile.elementWire elem) elem := by
  cases profile with
  | unknown => cases h
  | oneByte => exact carries_oneByte h
  | twoByte => exact carries_twoByte h

theorem classifyProfile_value {profile : ExtensionProfile} (h : profile ≠ .unknown) :
    classifyProfile profile.value = profile := by
  cases profile with
  | unknown => exact absurd rfl h
  | oneByte => rfl
  | twoByte => rfl

theorem isPadding_zeros {profile : ExtensionProfile} (h : profile ≠ .unknown) (n : Nat) :
    ∀ b ∈ zeros n, profile.format.isPadding b = true := by
  intro b hb
  rw [List.eq_of_mem_replicate hb]
  cases profile with
  | unknown => exact absurd rfl h
  | oneByte => rfl
  | twoByte => rfl

end Rtpkit

import Rtpkit.PcapngWire

namespace Rtpkit

open Outcome Chunk Alignment

/-- The code of an option and the length of its value fit, and it is not the end of the list. -/
structure OptionFits (option : Nat × Bytes) : Prop where
  code_ne : option.1 ≠ optEndofopt
  code_lt : option.1 < 2 ^ 16
  length_lt : option.2.length < 2 ^ 16

def optionWire (order : ByteOrder) (option : Nat × Bytes) : Bytes :=
  Fmt.wireIn order .H option.1 ++ (Fmt.wireIn order .H option.2.length ++ padded option.2)

def endOfOptions (order : ByteOrder) : Bytes :=
  Fmt.wireIn order .H optEndofopt ++ Fmt.wireIn order .H 0

/-- A list of options, with or without the option that ends it. -/
def optionsWire (order : ByteOrder) (options : List (Nat × Bytes)) (ended : Bool) : Bytes :=
  (options.map (optionWire order)).flatten ++ if ended then endOfOptions order else []

/-- The value that decides the resolution: the first option for it that is not empty. -/
def tsresolByte (options : List (Nat × Bytes)) : Option UInt8 :=
  options.findSome? fun option => if option.1 = optIfTsresol then option.2.head? else none

/-- Ticks in a second. -/
def tsResolution (options : List (Nat × Bytes)) : Nat :=
  match tsresolByte options with
  | none => 10 ^ 6
  | some v => if 128 ≤ v.toNat then 2 ^ (v.toNat % 128) else 10 ^ v.toNat

section Wire

variable {order : ByteOrder} {options : List (Nat × Bytes)} {ended : Bool}

theorem length_optionWire (option : Nat × Bytes) :
    (optionWire order option).length = 4 + (option.2.length + fill 4 option.2.length) := by
  simp only [optionWire, List.length_append, Fmt.length_wireIn, Fmt.size_H, length_padded]
  omega

theorem length_optionsWire_mod (order : ByteOrder) (options : List (Nat × Bytes)) (ended : Bool) :
    (optionsWire order options ended).length % 4 = 0 := by
  induction options with
  | nil =>
    cases ended with
    | true => simp [optionsWire, endOfOptions]
    | false => rfl
  | cons option options ih =>
    have hpad := add_fill_mod 4 option.2.length
    have hcons : optionsWire order (option :: options) ended =
        optionWire order option ++ optionsWire order options ended := by
      simp [optionsWire]
    rw [hcons, List.length_append, length_optionWire]
    omega

/-- Options that stand at a position are read there, up to where the reader stops. -/
theorem iterOptions_of_standsAt {data : Bytes} {pos : Nat}
    (hfits : ∀ option ∈ options, OptionFits option)
    (h : StandsAt data pos (options.map (optionWire order)).flatten)
    (hend : iterOptions order data (pos + (options.map (optionWire order)).flatten.length) =
      .ok []) :
    iterOptions order data pos = .ok options := by
  induction options generalizing pos with
  | nil => exact hend
  | cons option options ih =>
    have hoption := hfits option (by simp)
    rw [List.map_cons, List.flatten_cons] at h hend
    obtain ⟨hhere, hrest⟩ := standsAt_append.mp h
    rw [List.length_append, ← Nat.add_assoc] at hend
    have htail := ih (fun o ho => hfits o (by simp [ho])) hrest hend
    rw [length_optionWire, ← Nat.add_assoc] at htail
    simp only [optionWire, padded, standsAt_append, Fmt.length_wireIn, Fmt.size_H] at hhere
    obtain ⟨hcodeAt, hlengthAt, hvalueAt, -⟩ := hhere
    have hcode : Fmt.Fits .H (option.1 : Nat) := Fmt.fits_H.mpr (by have := hoption.code_lt; omega)
    have hlength : Fmt.Fits .H (option.2.length : Nat) :=
      Fmt.fits_H.mpr (by have := hoption.length_lt; omega)
    have hle := hvalueAt.le_length
    have hvalue := hvalueAt.slice_eq
    rw [Nat.add_assoc pos 2 2] at hle hvalue
    rw [iterOptions, dif_pos (by omega), unpackIn_of_standsAt hcode hcodeAt, bind_ok,
      unpackIn_of_standsAt hlength hlengthAt, bind_ok, Int.toNat_natCast, Int.toNat_natCast,
      if_neg hoption.code_ne, if_neg (by omega), alignPad_eq, htail, hvalue]
    rfl

theorem iterOptions_optionsWire (hfits : ∀ option ∈ options, OptionFits option) :
    iterOptions order (optionsWire order options ended) 0 = .ok options := by
  have hstands : StandsAt (optionsWire order options ended) 0
      (options.map (optionWire order)).flatten := ⟨[], _, rfl, rfl⟩
  refine iterOptions_of_standsAt hfits hstands ?_
  generalize hd : optionsWire order options ended = data at hstands ⊢
  rw [Nat.zero_add]
  cases ended with
  | false =>
    have hlen : data.length = (options.map (optionWire order)).flatten.length := by
      rw [← hd, optionsWire, List.length_append]
      rfl
    rw [iterOptions, dif_neg (by omega)]
    rfl
  | true =>
    have hstop : StandsAt data (options.map (optionWire order)).flatten.length
        (endOfOptions order) := ⟨_, [], by rw [← hd]; simp [optionsWire], rfl⟩
    have hle := hstop.le_length
    rw [endOfOptions, standsAt_append] at hstop
    obtain ⟨hcodeAt, hlengthAt⟩ := hstop
    rw [Fmt.length_wireIn, Fmt.size_H] at hlengthAt
    have hlength : (endOfOptions order).length = 4 := by simp [endOfOptions]
    rw [iterOptions, dif_pos (by omega), unpackIn_of_standsAt (by decide) hcodeAt, bind_ok,
      unpackIn_of_standsAt (by decide) hlengthAt, bind_ok, Int.toNat_natCast, if_pos rfl]
    rfl

end Wire

theorem tsresol_eq (v : UInt8) :
    (if v.toNat &&& 0x80 ≠ 0 then 2 ^ (v.toNat &&& 0x7F) else 10 ^ v.toNat) =
      if 128 ≤ v.toNat then 2 ^ (v.toNat % 128) else 10 ^ v.toNat := by
  have hbit : ∀ n < 256, n &&& 0x80 ≠ 0 ↔ 128 ≤ n := by decide +kernel
  have hlow : v.toNat &&& 0x7F = v.toNat % 128 := Nat.and_two_pow_sub_one_eq_mod v.toNat 7
  rw [hlow]
  exact if_congr (hbit v.toNat v.toNat_lt) rfl rfl

/-- The search of the reader for the option finds the byte that decides. -/
theorem find?_tsresol (options : List (Nat × Bytes)) :
    (options.find? fun option => option.1 = optIfTsresol ∧ 1 ≤ option.2.length).bind
      (fun option => option.2.head?) = tsresolByte options := by
  induction options with
  | nil => rfl
  | cons option options ih =>
    obtain ⟨code, value⟩ := option
    by_cases hcode : code = optIfTsresol
    · cases value with
      | nil => simpa [tsresolByte, hcode] using ih
      | cons v value => simp [tsresolByte, hcode]
    · simpa [tsresolByte, hcode] using ih

theorem parseIfTsresol_eq_ok {order : ByteOrder} {data : Bytes} {options : List (Nat × Bytes)}
    (h : iterOptions order data 0 = .ok options) :
    parseIfTsresol order data = .ok (tsResolution options) := by
  have hfound := find?_tsresol options
  rw [parseIfTsresol, h, bind_ok, tsResolution, ← hfound]
  cases hoption : options.find? fun option => option.1 = optIfTsresol ∧ 1 ≤ option.2.length with
  | none => rfl
  | some option =>
    have hsome := List.find?_some hoption
    obtain ⟨code, value⟩ := option
    cases value with
    | nil => simp at hsome
    | cons v value => exact congrArg Except.ok (tsresol_eq v)

end Rtpkit

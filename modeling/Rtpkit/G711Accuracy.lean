import Rtpkit.G711Codes

namespace Rtpkit

open Outcome

namespace G711

section Steps

/-- The middle of a step of the µ-law, by the segment and the number of the step. -/
theorem exists_ulaw (negative : Bool) {exponent mantissa : Nat} (he : exponent < 8)
    (hm : mantissa < 16) : ∃ code : UInt8, ulawDecode.entry code =
      (if negative then -1 else 1) * ((8 * mantissa + 132) * 2 ^ exponent - 132) := by
  have hall : ∀ negative : Bool, ∀ exponent < 8, ∀ mantissa < 16,
      ulawDecodeByte (~~~UInt8.ofNat ((if negative then 128 else 0) + 16 * exponent + mantissa)) =
        (if negative then -1 else 1) * ((8 * (mantissa : Int) + 132) * 2 ^ exponent - 132) := by
    decide +kernel
  exact ⟨_, (entry_ulawDecode _).trans (hall negative exponent he mantissa hm)⟩

/-- The middle of a step of the A-law; the lowest segment has no doubled step. -/
theorem exists_alaw (negative : Bool) {seg step : Nat} (hseg : seg < 8) (hstep : step < 16) :
    ∃ code : UInt8, alawDecode.entry code = (if negative then -1 else 1) *
      ((16 * step + if seg = 0 then 8 else 264) * 2 ^ (seg - 1)) := by
  have hall : ∀ negative : Bool, ∀ seg < 8, ∀ step < 16,
      alawDecodeByte (UInt8.ofNat ((if negative then 0 else 128) + 16 * seg + step) ^^^ 0x55) =
        (if negative then -1 else 1) *
          ((16 * (step : Int) + if seg = 0 then 8 else 264) * 2 ^ (seg - 1)) := by
    decide +kernel
  exact ⟨_, (entry_alawDecode _).trans (hall negative seg hseg step hstep)⟩

/-- Some octave holds the value. -/
theorem exists_octave {base n x : Nat} (hlow : base ≤ x) (hhigh : x < base * 2 ^ n) :
    ∃ e < n, base * 2 ^ e ≤ x ∧ x < 2 * (base * 2 ^ e) := by
  induction n with
  | zero => omega
  | succ n ih =>
    rcases Nat.lt_or_ge x (base * 2 ^ n) with hlt | hge
    · obtain ⟨e, he, hoctave⟩ := ih hlt
      exact ⟨e, by omega, hoctave⟩
    · rw [pow_succ, ← mul_assoc] at hhigh
      exact ⟨n, by omega, hge, by omega⟩

/-- Sixteen steps fill an octave, and their middles are at most half a step away. -/
theorem exists_step {half x : Nat} (hlow : 32 * half ≤ x) (hhigh : x < 64 * half) :
    ∃ m : Nat, m < 16 ∧ |(x : Int) - (2 * m + 33) * half| ≤ half := by
  have hpos : 0 < 2 * half := by omega
  have hdiv := Nat.div_add_mod x (2 * half)
  have hmod := Nat.mod_lt x hpos
  have hge : 16 ≤ x / (2 * half) := (Nat.le_div_iff_mul_le hpos).mpr (by omega)
  have hlt : x / (2 * half) < 32 := (Nat.div_lt_iff_lt_mul hpos).mpr (by omega)
  obtain ⟨m, hm⟩ := Nat.exists_eq_add_of_le hge
  rw [hm] at hdiv hlt
  refine ⟨m, by omega, ?_⟩
  have hmiddle : (2 * (m : Int) + 33) * half = (2 * half * (16 + m) : Nat) + half := by
    push_cast
    ring
  rw [hmiddle, abs_le]
  omega

theorem abs_sub_signed (s v : Int) :
    |s - (if decide (s < 0) = true then -1 else 1) * v| = |(s.natAbs : Int) - v| := by
  by_cases hneg : s < 0
  · rw [if_pos (decide_eq_true hneg), abs_sub_comm]
    congr 1
    omega
  · rw [if_neg (by simpa using hneg)]
    congr 1
    omega

end Steps

section Bounds

variable {sample : Int}

theorem exists_ulaw_near (h : IsShort sample) :
    ∃ code, 32 * |sample - ulawDecode.entry code| ≤ |sample| + 132 := by
  obtain ⟨hlow, hhigh⟩ := h
  have habs : |sample| = sample.natAbs := Int.abs_eq_natAbs sample
  rcases Nat.lt_or_ge (sample.natAbs + 132) 32768 with hinside | hclipped
  · have hoctaves : sample.natAbs + 132 < 128 * 2 ^ 8 := by omega
    obtain ⟨e, he, hbelow, habove⟩ := exists_octave (by omega) hoctaves
    have hsteps : 32 * (4 * 2 ^ e) ≤ sample.natAbs + 132 := by omega
    obtain ⟨m, hm, hnear⟩ := exists_step hsteps (by omega)
    obtain ⟨code, hcode⟩ := exists_ulaw (decide (sample < 0)) he hm
    refine ⟨code, ?_⟩
    have hvalue : (sample.natAbs : Int) - ((8 * m + 132) * 2 ^ e - 132) =
        (sample.natAbs + 132 : Nat) - (2 * m + 33) * (4 * 2 ^ e : Nat) := by
      push_cast
      ring
    rw [hcode, abs_sub_signed, habs, hvalue]
    omega
  · obtain ⟨code, hcode⟩ := exists_ulaw (decide (sample < 0)) (show 7 < 8 by omega)
      (show 15 < 16 by omega)
    refine ⟨code, ?_⟩
    rw [hcode, abs_sub_signed, habs, abs_of_nonneg (by norm_num; omega)]
    norm_num
    omega

theorem exists_alaw_near (h : IsShort sample) :
    ∃ code, |sample - alawDecode.entry code| ≤ 8 ∨
      32 * |sample - alawDecode.entry code| ≤ |sample| := by
  obtain ⟨hlow, hhigh⟩ := h
  have habs : |sample| = sample.natAbs := Int.abs_eq_natAbs sample
  rcases Nat.lt_or_ge sample.natAbs 256 with hsmall | hlarge
  · have hstep : sample.natAbs / 16 < 16 := by omega
    obtain ⟨code, hcode⟩ := exists_alaw (decide (sample < 0)) (show 0 < 8 by omega) hstep
    refine ⟨code, .inl ?_⟩
    rw [hcode, abs_sub_signed, if_pos rfl, pow_zero, mul_one, abs_le]
    omega
  rcases Nat.lt_or_ge sample.natAbs 32768 with hinside | hclipped
  · have hoctaves : sample.natAbs < 256 * 2 ^ 7 := by omega
    obtain ⟨e, he, hbelow, habove⟩ := exists_octave hlarge hoctaves
    have hsteps : 32 * (8 * 2 ^ e) ≤ sample.natAbs := by omega
    obtain ⟨m, hm, hnear⟩ := exists_step hsteps (by omega)
    obtain ⟨code, hcode⟩ := exists_alaw (decide (sample < 0)) (show e + 1 < 8 by omega) hm
    refine ⟨code, .inr ?_⟩
    have hvalue : (sample.natAbs : Int) - (16 * m + 264) * 2 ^ e =
        sample.natAbs - (2 * m + 33) * (8 * 2 ^ e : Nat) := by
      push_cast
      ring
    rw [hcode, abs_sub_signed, if_neg (Nat.succ_ne_zero e), Nat.add_sub_cancel, habs, hvalue]
    omega
  · obtain ⟨code, hcode⟩ := exists_alaw (decide (sample < 0)) (show 7 < 8 by omega)
      (show 15 < 16 by omega)
    refine ⟨code, .inr ?_⟩
    rw [hcode, abs_sub_signed, habs, abs_of_nonneg (by norm_num; omega)]
    norm_num
    omega

end Bounds

/-- What is left of a sample after its code, the error being bounded by `Near`. -/
structure IsQuantiser (Near : Int → Int → Prop) (quantise : Int → Int) : Prop where
  mono : ∀ s t, s ≤ t → quantise s ≤ quantise t
  idem : ∀ sample, quantise (quantise sample) = quantise sample
  near : ∀ sample, IsShort sample → Near sample (quantise sample)

section Quantiser

variable (table : DecodeTable)

def DecodeTable.quantise (sample : Int) : Int := table.entry (nearestCode table sample)

theorem isQuantiser_quantise {Near : Int → Int → Prop}
    (hnear : ∀ sample, IsShort sample → Near sample (table.quantise sample)) :
    IsQuantiser Near table.quantise where
  mono _ _ hle := nearestCode_mono table hle
  idem sample := entry_nearestCode_entry table (nearestCode table sample)
  near := hnear

theorem isQuantiser_ulaw :
    IsQuantiser (fun s t => 32 * |s - t| ≤ |s| + 132) ulawDecode.quantise := by
  refine isQuantiser_quantise ulawDecode fun sample hsample => ?_
  obtain ⟨code, hcode⟩ := exists_ulaw_near hsample
  have hle := nearestCode_le ulawDecode sample code
  dsimp only [DecodeTable.quantise]
  omega

theorem isQuantiser_alaw :
    IsQuantiser (fun s t => |s - t| ≤ 8 ∨ 32 * |s - t| ≤ |s|) alawDecode.quantise := by
  refine isQuantiser_quantise alawDecode fun sample hsample => ?_
  obtain ⟨code, hcode⟩ := exists_alaw_near hsample
  have hle := nearestCode_le alawDecode sample code
  dsimp only [DecodeTable.quantise]
  omega

theorem encode_then_decode {table : DecodeTable} (h : table.Is16Bit) (sender receiver : ByteOrder)
    (pcm16le : Bytes) :
    (do
      let codes ← encode sender pcm16le (buildEncodeLut table)
      decode receiver codes table) =
    if pcm16le.length % 2 = 0 then .ok (pcmOf ((samplesOf pcm16le).map table.quantise))
    else .error .valueError := by
  split
  next heven =>
    rw [encode_buildEncodeLut table sender heven, bind_ok, decode_eq h, List.map_map]
    rfl
  next hodd => rw [encode, frombytes, require_neg hodd, bind_error, bind_error, bind_error]

end Quantiser

/-- Encoding and decoding acts sample by sample as a monotone quantiser, at most a thirty-second
of the sample away; the µ-law adds its bias to that and the A-law half of its smallest step. -/
theorem transcoding_quantises :
    (∃ quantise, IsQuantiser (fun s t => 32 * |s - t| ≤ |s| + 132) quantise ∧
      ∀ sender receiver pcm16le, (do
        let codes ← encodePcmu sender pcm16le
        decodePcmu receiver codes) =
      if pcm16le.length % 2 = 0 then .ok (pcmOf ((samplesOf pcm16le).map quantise))
      else .error .valueError) ∧
    (∃ quantise, IsQuantiser (fun s t => |s - t| ≤ 8 ∨ 32 * |s - t| ≤ |s|) quantise ∧
      ∀ sender receiver pcm16le, (do
        let codes ← encodePcma sender pcm16le
        decodePcma receiver codes) =
      if pcm16le.length % 2 = 0 then .ok (pcmOf ((samplesOf pcm16le).map quantise))
      else .error .valueError) :=
  ⟨⟨_, isQuantiser_ulaw, encode_then_decode ulawDecode_is16Bit⟩,
    ⟨_, isQuantiser_alaw, encode_then_decode alawDecode_is16Bit⟩⟩

end G711

end Rtpkit

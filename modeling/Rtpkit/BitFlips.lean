import Rtpkit.FuzzCorpus
import Rtpkit.Toggle
import Mathlib.Data.List.GetD

namespace Rtpkit

open Draw Toggle

namespace Fuzz

/-- The bits of a buffer of `n` bytes. -/
def bitsOf (n : Nat) (buf : Bytes) : Fin n × Fin 8 → Bool :=
  fun place => (buf.getD place.1 0).toNat.testBit place.2

/-- In how many bits two buffers of one length differ. -/
def bitDistance (data flipped : Bytes) : Nat :=
  hammingDist (bitsOf data.length data) (bitsOf data.length flipped)

@[simp] theorem length_flipBit (buf : Bytes) (pos bit : Nat) :
    (flipBit buf pos bit).length = buf.length := List.length_modify _ _ _

theorem testBit_flip (byte : UInt8) (bit other : Fin 8) :
    (byte ^^^ (1 <<< UInt8.ofNat bit)).toNat.testBit other =
      if other = bit then !byte.toNat.testBit bit else byte.toNat.testBit other := by
  have hpower : ∀ bit : Fin 8, ((1 : UInt8) <<< UInt8.ofNat bit).toNat = 2 ^ bit.val := by decide
  rw [UInt8.toNat_xor, Nat.testBit_xor, hpower, Nat.testBit_two_pow]
  by_cases h : other = bit
  · subst h
    simp
  · rw [if_neg h, decide_eq_false fun heq => h (Fin.ext heq.symm), Bool.xor_false]

/-- A flipped bit of the buffer is a bit that is turned over. -/
theorem bitsOf_flipBit {n : Nat} {buf : Bytes} (h : buf.length = n) (pos : Fin n) (bit : Fin 8) :
    bitsOf n (flipBit buf pos bit) = toggle (bitsOf n buf) (pos, bit) := by
  funext ⟨i, j⟩
  have hi : i.val < buf.length := by omega
  have hi' : i.val < (flipBit buf pos bit).length := by rwa [length_flipBit]
  have hmodify : (flipBit buf pos bit).getD i 0 =
      if pos = i then buf[i.val] ^^^ (1 <<< UInt8.ofNat bit) else buf[i.val] := by
    rw [List.getD_eq_getElem _ _ hi']
    simp only [flipBit, List.getElem_modify, Fin.ext_iff]
  rw [bitsOf, hmodify, toggle, Function.update_apply]
  simp only [bitsOf, Prod.mk.injEq]
  by_cases hpos : pos = i
  · subst hpos
    rw [if_pos rfl, testBit_flip, ← List.getD_eq_getElem _ 0 hi]
    simp only [true_and]
  · rw [if_neg hpos, if_neg fun h => hpos h.1.symm, ← List.getD_eq_getElem _ 0 hi]

/-- The bits of a buffer of known length are all there is to it. -/
theorem bitsOf_inj {n : Nat} {buf buf' : Bytes} (h : buf.length = n) (h' : buf'.length = n)
    (hbits : bitsOf n buf = bitsOf n buf') : buf = buf' := by
  refine List.ext_getElem (by omega) fun i hi hi' => ?_
  refine UInt8.toNat_inj.mp (Nat.eq_of_testBit_eq fun j => ?_)
  rcases Nat.lt_or_ge j 8 with hj | hj
  · have hbit := congrFun hbits (⟨i, by omega⟩, ⟨j, hj⟩)
    simpa only [bitsOf, List.getD_eq_getElem _ _ hi, List.getD_eq_getElem _ _ hi'] using hbit
  · have hlarge : 2 ^ 8 ≤ 2 ^ j := Nat.pow_le_pow_right (by omega) hj
    rw [Nat.testBit_lt_two_pow ((UInt8.toNat_lt _).trans_le hlarge),
      Nat.testBit_lt_two_pow ((UInt8.toNat_lt _).trans_le hlarge)]

section Flips

variable {n : Nat}

/-- The buffers that bits can be turned over to, as the loop goes through them. -/
def flipAll (buf : Bytes) (places : List (Fin n × Fin 8)) : Bytes :=
  places.foldl (fun buf place => flipBit buf place.1 place.2) buf

theorem length_flipAll (buf : Bytes) (places : List (Fin n × Fin 8)) :
    (flipAll buf places).length = buf.length := by
  induction places generalizing buf with
  | nil => rfl
  | cons place places ih =>
    rw [flipAll, List.foldl_cons, ← flipAll, ih, length_flipBit]

theorem bitsOf_flipAll {buf : Bytes} (h : buf.length = n) (places : List (Fin n × Fin 8)) :
    bitsOf n (flipAll buf places) = places.foldl toggle (bitsOf n buf) := by
  induction places generalizing buf with
  | nil => rfl
  | cons place places ih =>
    rw [flipAll, List.foldl_cons, ← flipAll, ih ((length_flipBit _ _ _).trans h),
      bitsOf_flipBit h, List.foldl_cons]

theorem gives_flips {σ : Type} (rng : Source σ) {q : DrawError → Prop} (hn : 0 < n) (count : Nat)
    {buf : Bytes} (h : buf.length = n) :
    Gives (flips rng count buf) (fun flipped =>
      ∃ places : List (Fin n × Fin 8), places.length = count ∧ flipped = flipAll buf places) q := by
  induction count generalizing buf with
  | zero => exact gives_pure ⟨[], rfl, rfl⟩
  | succ count ih =>
    refine (gives_randrange rng (by omega)).bind fun pos hpos => ?_
    refine (gives_randrange rng (by omega)).bind fun bit hbit => ?_
    refine (ih ((length_flipBit _ _ _).trans h)).mono ?_
    rintro flipped ⟨places, hlen, rfl⟩
    exact ⟨(⟨pos, by omega⟩, ⟨bit, by omega⟩) :: places, by rw [List.length_cons, hlen], rfl⟩

theorem can_flips {buf : Bytes} (h : buf.length = n) (places : List (Fin n × Fin 8)) :
    Can (flips scripted places.length buf) (flipAll buf places) := by
  induction places generalizing buf with
  | nil => exact can_pure
  | cons place places ih =>
    exact can_flips_succ (by rw [h]; exact place.1.isLt) place.2.isLt
      (ih ((length_flipBit _ _ _).trans h))

end Flips

theorem flips_reaches {data : Bytes} (hne : data ≠ []) (count : Nat) (flipped : Bytes) :
    (∃ (σ : Type) (rng : Source σ) (s s' : σ), flips rng count data s = .ok (flipped, s')) ↔
      flipped.length = data.length ∧ bitDistance data flipped ≤ count ∧
        bitDistance data flipped % 2 = count % 2 := by
  have hpos := List.length_pos_of_ne_nil hne
  have : Nonempty (Fin data.length × Fin 8) := ⟨(⟨0, hpos⟩, 0)⟩
  constructor
  · rintro ⟨σ, rng, s, s', hflip⟩
    have hgives := gives_flips (q := fun _ => False) rng hpos count rfl s
    rw [hflip] at hgives
    obtain ⟨places, hlen, rfl⟩ := hgives
    exact ⟨length_flipAll _ _, (exists_foldl_toggle_iff count _ _).mp
      ⟨places, hlen, (bitsOf_flipAll rfl places).symm⟩⟩
  · rintro ⟨hlen, hdist⟩
    obtain ⟨places, hplaces, hgoal⟩ := (exists_foldl_toggle_iff count _ _).mpr hdist
    obtain ⟨script, hscript⟩ := can_flips rfl places
    have hflipped : flipAll data places = flipped :=
      bitsOf_inj (length_flipAll _ _) hlen ((bitsOf_flipAll rfl places).trans hgoal)
    refine ⟨List Nat, scripted, script, [], ?_⟩
    rw [← hplaces, ← hflipped]
    simpa using hscript []

/-- Bits are drawn anew in each turn, so that a later turn may undo an earlier one: what can come
out differs in at most so many bits, or in any even number less. No turn is taken for a negative
count. -/
theorem bitFlip_reaches (data : Bytes) (count : Int) :
    (∀ (σ : Type) (rng : Source σ) (s : σ), ∃ flipped s',
      bitFlip rng data count s = .ok (flipped, s')) ∧
    ∀ flipped, (∃ (σ : Type) (rng : Source σ) (s s' : σ),
        bitFlip rng data count s = .ok (flipped, s')) ↔
      flipped.length = data.length ∧ bitDistance data flipped ≤ count.toNat ∧
        (data ≠ [] → bitDistance data flipped % 2 = count.toNat % 2) := by
  by_cases hempty : data = []
  · subst hempty
    refine ⟨fun σ rng s => ⟨[], s, rfl⟩, fun flipped => ⟨?_, ?_⟩⟩
    · rintro ⟨σ, rng, s, s', hflip⟩
      cases hflip
      exact ⟨rfl, by simp [bitDistance], fun h => absurd rfl h⟩
    · rintro ⟨hlen, -⟩
      rw [List.length_eq_zero_iff.mp hlen]
      exact ⟨List Nat, scripted, [], [], rfl⟩
  · have hloop : ∀ {σ : Type} (rng : Source σ), bitFlip rng data count = flips rng count.toNat data :=
      fun rng => if_neg hempty
    refine ⟨fun σ rng s => ?_, fun flipped => ?_⟩
    · have hgives := gives_flips (q := fun _ => False) rng (List.length_pos_of_ne_nil hempty)
        count.toNat rfl s
      rw [hloop]
      split at hgives
      next flipped s' hflip => exact ⟨flipped, s', hflip⟩
      next => exact hgives.elim
    · simp only [hloop, flips_reaches hempty, ne_eq, hempty, not_false_eq_true, true_implies]

end Fuzz

end Rtpkit

import Rtpkit.G711
import Mathlib.Data.List.GetD

namespace Rtpkit

namespace G711

section Nearest

variable {values : List Int}

theorem nearestIndex_cases (values : List Int) (sample : Int) :
    (Bisect.left values sample = 0 ∧ nearestIndex values sample = 0) ∨
    (Bisect.left values sample = values.length ∧
      nearestIndex values sample = values.length - 1) ∨
    (0 < Bisect.left values sample ∧ Bisect.left values sample ≠ values.length ∧
      ((sample - values.getD (Bisect.left values sample - 1) 0 ≤
          values.getD (Bisect.left values sample) 0 - sample ∧
        nearestIndex values sample = Bisect.left values sample - 1) ∨
      (values.getD (Bisect.left values sample) 0 - sample <
          sample - values.getD (Bisect.left values sample - 1) 0 ∧
        nearestIndex values sample = Bisect.left values sample))) := by
  unfold nearestIndex
  dsimp only
  by_cases hfront : Bisect.left values sample = 0
  · exact .inl ⟨hfront, if_pos hfront⟩
  rw [if_neg hfront]
  by_cases hback : Bisect.left values sample = values.length
  · exact .inr (.inl ⟨hback, if_pos hback⟩)
  rw [if_neg hback]
  refine .inr (.inr ⟨Nat.pos_of_ne_zero hfront, hback, ?_⟩)
  by_cases hlower : sample - values.getD (Bisect.left values sample - 1) 0 ≤
      values.getD (Bisect.left values sample) 0 - sample
  · exact .inl ⟨hlower, if_pos hlower⟩
  · exact .inr ⟨not_le.mp hlower, if_neg hlower⟩

theorem nearestIndex_lt (hs : values.Pairwise (· ≤ ·)) (hne : values ≠ []) (sample : Int) :
    nearestIndex values sample < values.length := by
  have hle := (Bisect.splits_left hs.sortedLE sample).le_length
  have hpos := List.length_pos_of_ne_nil hne
  rcases nearestIndex_cases values sample with ⟨-, h⟩ | ⟨-, h⟩ | ⟨-, hback, ⟨-, h⟩ | ⟨-, h⟩⟩
  · omega
  · omega
  · omega
  · omega

/-- No other value is nearer: below the split the last one is the nearest, from the split on the
first one is, and these two are compared. -/
theorem nearestIndex_le (hs : values.Pairwise (· ≤ ·)) (hne : values ≠ []) (sample : Int) {i : Nat}
    (hi : i < values.length) :
    |sample - values.getD (nearestIndex values sample) 0| ≤ |sample - values[i]| := by
  have hsplit := Bisect.splits_left hs.sortedLE sample
  have hlt := nearestIndex_lt hs hne sample
  rw [List.getD_eq_getElem _ _ hlt]
  rcases nearestIndex_cases values sample with ⟨hfront, h⟩ | ⟨hback, h⟩ | ⟨hfront, hback, hinner⟩
  · exact hsplit.abs_mono hs.sortedLE (by omega) hi (by omega)
  · exact hsplit.abs_anti hs.sortedLE (by omega) hlt (by omega)
  · have hle := hsplit.le_length
    have hright : Bisect.left values sample < values.length := by omega
    have hleft : Bisect.left values sample - 1 < values.length := by omega
    rw [List.getD_eq_getElem _ _ hright, List.getD_eq_getElem _ _ hleft,
      ← hsplit.abs_of_below hleft (by omega), ← hsplit.abs_of_above hright (Nat.le_refl _)] at hinner
    rcases Nat.lt_or_ge i (Bisect.left values sample) with hbelow | habove
    · have hnear := hsplit.abs_anti hs.sortedLE (i := i) (Nat.le_sub_one_of_lt hbelow) hleft (by omega)
      rcases hinner with ⟨-, h⟩ | ⟨hright, h⟩
      · simpa only [h] using hnear
      · simpa only [h] using hright.le.trans hnear
    · have hnear := hsplit.abs_mono hs.sortedLE habove hi (Nat.le_refl _)
      rcases hinner with ⟨hleft, h⟩ | ⟨-, h⟩
      · simpa only [h] using hleft.trans hnear
      · simpa only [h] using hnear

end Nearest

section Codes

variable (table : DecodeTable)

theorem mem_allCodes (code : UInt8) : code ∈ allCodes := by
  rw [allCodes, List.mem_map]
  exact ⟨code.toNat, List.mem_range.mpr code.toNat_lt, UInt8.ofNat_toNat⟩

theorem mem_codesByValue (code : UInt8) : code ∈ codesByValue table :=
  List.mem_mergeSort.mpr (mem_allCodes code)

theorem pairwise_sortedValues : (sortedValues table).Pairwise (· ≤ ·) := by
  have hsorted := @List.pairwise_mergeSort _
    (fun a b : UInt8 => decide (table.entry a ≤ table.entry b))
    (fun a b c hab hbc => by simpa using le_trans (of_decide_eq_true hab) (of_decide_eq_true hbc))
    (fun a b => by simpa using le_total (table.entry a) (table.entry b)) allCodes
  simp only [decide_eq_true_eq] at hsorted
  exact List.pairwise_map.mpr hsorted

theorem sortedValues_ne_nil : sortedValues table ≠ [] :=
  List.ne_nil_of_mem (List.mem_map_of_mem (mem_codesByValue table 0))

theorem entry_nearestCode (sample : Int) : table.entry (nearestCode table sample) =
    (sortedValues table).getD (nearestIndex (sortedValues table) sample) 0 := by
  have hlt := nearestIndex_lt (pairwise_sortedValues table) (sortedValues_ne_nil table) sample
  have hlt' : nearestIndex (sortedValues table) sample < (codesByValue table).length := by
    simpa only [sortedValues, List.length_map] using hlt
  rw [List.getD_eq_getElem _ _ hlt, nearestCode, List.getD_eq_getElem _ _ hlt']
  simp only [sortedValues, List.getElem_map]

/-- The code of a sample is a nearest one. -/
theorem nearestCode_le (sample : Int) (code : UInt8) :
    |sample - table.entry (nearestCode table sample)| ≤ |sample - table.entry code| := by
  have hmem := List.mem_map_of_mem (f := table.entry) (mem_codesByValue table code)
  obtain ⟨i, hi, hentry⟩ := List.getElem_of_mem hmem
  have hle := nearestIndex_le (pairwise_sortedValues table) (sortedValues_ne_nil table) sample hi
  rw [entry_nearestCode, ← hentry]
  exact hle

theorem length_foldl_set {α : Type} (f : Nat → α) (is : List Nat) (xs : List α) :
    (is.foldl (fun xs i => xs.set i (f i)) xs).length = xs.length := by
  induction is generalizing xs with
  | nil => rfl
  | cons i is ih => rw [List.foldl_cons, ih, List.length_set]

/-- A table that is filled index by index. -/
theorem getElem?_foldl_set {α : Type} (f : Nat → α) {xs : List α} {n i : Nat} (hi : i < n)
    (hn : n ≤ xs.length) :
    ((List.range n).foldl (fun xs i => xs.set i (f i)) xs)[i]? = some (f i) := by
  induction n with
  | zero => omega
  | succ n ih =>
    have hlen := length_foldl_set f (List.range n) xs
    rw [List.range_succ, List.foldl_append, List.foldl_cons, List.foldl_nil]
    by_cases hlast : i = n
    · subst hlast
      exact List.getElem?_set_self (by omega)
    · rw [List.getElem?_set_ne (Ne.symm hlast)]
      exact ih (by omega) (by omega)

theorem buildEncodeLut_eq : buildEncodeLut table =
    (List.range 65536).foldl (fun lut i => lut.set i (nearestCode table (i - 32768)))
      (List.replicate 65536 0) := by
  have hindex : ∀ i : Nat, ((i : Int) - 32768 + 32768).toNat = i := by
    intro i
    omega
  rw [buildEncodeLut, allSamples, List.foldl_map]
  simp only [hindex]

/-- The code that the finished table has for a sample. -/
theorem lutEntry_buildEncodeLut {sample : Int} (h : IsShort sample) :
    lutEntry (buildEncodeLut table) sample = .ok (nearestCode table sample) := by
  obtain ⟨hlow, hhigh⟩ := h
  have hback : (((sample + 32768).toNat : Nat) : Int) - 32768 = sample := by omega
  have hroom : 65536 ≤ (List.replicate 65536 (0 : UInt8)).length := by rw [List.length_replicate]
  have hindex : (sample + 32768).toNat < 65536 := by omega
  rw [lutEntry, buildEncodeLut_eq, getElem?_foldl_set _ hindex hroom]
  simp only [hback]

end Codes

end G711

end Rtpkit

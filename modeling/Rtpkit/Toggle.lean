import Mathlib.InformationTheory.Hamming

namespace Toggle

variable {ι : Type} [Fintype ι] [DecidableEq ι]

/-- The word with the bit at `i` turned over. -/
def toggle (word : ι → Bool) (i : ι) : ι → Bool := Function.update word i (!word i)

variable {word goal : ι → Bool} {i : ι}

theorem hammingDist_toggle_of_eq (h : word i = goal i) :
    hammingDist (toggle word i) goal = hammingDist word goal + 1 := by
  have hfilter : Finset.univ.filter (fun j => toggle word i j ≠ goal j) =
      insert i (Finset.univ.filter fun j => word j ≠ goal j) := by
    ext j
    rw [Finset.mem_filter_univ, Finset.mem_insert, Finset.mem_filter_univ]
    by_cases hj : j = i
    · subst hj
      simp [toggle, h]
    · simp [toggle, hj]
  have hnotMem : i ∉ Finset.univ.filter fun j => word j ≠ goal j := by simp [h]
  rw [hammingDist, hfilter, Finset.card_insert_of_notMem hnotMem, hammingDist]

omit [Fintype ι] in
theorem toggle_toggle (word : ι → Bool) (i : ι) : toggle (toggle word i) i = word := by
  simp [toggle]

theorem hammingDist_toggle_of_ne (h : word i ≠ goal i) :
    hammingDist (toggle word i) goal + 1 = hammingDist word goal := by
  have heq : toggle word i i = goal i := by
    rw [toggle, Function.update_self]
    exact Bool.not_eq.mpr h
  rw [← hammingDist_toggle_of_eq heq, toggle_toggle]

/-- Turning over bits one by one leads to the words at no larger a distance of the same parity. -/
theorem exists_foldl_toggle_iff [Nonempty ι] (n : Nat) (word goal : ι → Bool) :
    (∃ places : List ι, places.length = n ∧ places.foldl toggle word = goal) ↔
      hammingDist word goal ≤ n ∧ hammingDist word goal % 2 = n % 2 := by
  induction n generalizing word with
  | zero =>
    constructor
    · rintro ⟨places, hlen, rfl⟩
      rw [List.length_eq_zero_iff.mp hlen, List.foldl_nil, hammingDist_self]
      exact ⟨le_rfl, rfl⟩
    · rintro ⟨hle, -⟩
      exact ⟨[], rfl, hammingDist_eq_zero.mp (Nat.le_zero.mp hle)⟩
  | succ n ih =>
    constructor
    · rintro ⟨_ | ⟨i, places⟩, hlen, hgoal⟩
      · exact absurd hlen (Nat.succ_ne_zero n).symm
      · obtain ⟨hle, hparity⟩ := (ih (toggle word i)).mp ⟨places, by simpa using hlen, hgoal⟩
        by_cases h : word i = goal i
        · have hdist := hammingDist_toggle_of_eq h
          omega
        · have hdist := hammingDist_toggle_of_ne h
          omega
    · rintro ⟨hle, hparity⟩
      -- the next bit is a wrong one as long as there is any
      obtain ⟨i, hstep⟩ : ∃ i, hammingDist (toggle word i) goal ≤ n ∧
          hammingDist (toggle word i) goal % 2 = n % 2 := by
        by_cases heq : word = goal
        · obtain ⟨i⟩ := ‹Nonempty ι›
          have hdist := hammingDist_toggle_of_eq (congrFun heq i)
          have hzero := hammingDist_eq_zero.mpr heq
          exact ⟨i, by omega, by omega⟩
        · obtain ⟨i, hi⟩ := Function.ne_iff.mp heq
          have hdist := hammingDist_toggle_of_ne hi
          exact ⟨i, by omega, by omega⟩
      obtain ⟨places, hlen, hgoal⟩ := (ih (toggle word i)).mpr hstep
      exact ⟨i :: places, by rw [List.length_cons, hlen], hgoal⟩

end Toggle

import Mathlib.Data.Finset.Card
import Mathlib.Data.List.Induction
import Mathlib.Order.Interval.Finset.Defs

namespace ArrivalOrder

section Counting

variable {α : Type}

/-- The number of positions whose entry satisfies a test against the entries before it. -/
def countAt (test : List α → α → Bool) (xs : List α) : Nat :=
  (List.range xs.length).countP fun i => xs[i]?.any (test (xs.take i))

theorem countAt_concat (test : List α → α → Bool) (xs : List α) (x : α) :
    countAt test (xs ++ [x]) = countAt test xs + if test xs x then 1 else 0 := by
  have hold : (List.range xs.length).countP
        (fun i => (xs ++ [x])[i]?.any (test ((xs ++ [x]).take i))) = countAt test xs := by
    refine List.countP_congr fun i hi => ?_
    have hlt := List.mem_range.mp hi
    rw [List.getElem?_append_left hlt, List.take_append_of_le_length hlt.le]
  rw [countAt, List.length_append, List.length_singleton, List.range_succ, List.countP_append,
    hold]
  simp

theorem getElem?_of_concat {xs before : List α} {x : α} (h : before ++ [x] <+: xs) :
    xs[before.length]? = some x := by
  obtain ⟨rest, rfl⟩ := h
  simp

end Counting

section Order

variable {α : Type} [LinearOrder α]

/-- The number of entries that occurred earlier. -/
def repeats (xs : List α) : Nat := countAt (fun earlier x => decide (x ∈ earlier)) xs

/-- The number of new entries that some earlier entry exceeds. -/
def late (xs : List α) : Nat :=
  countAt (fun earlier x => decide (x ∉ earlier ∧ ∃ y ∈ earlier, x < y)) xs

@[simp] theorem late_nil : late ([] : List α) = 0 := rfl

theorem repeats_concat (xs : List α) (x : α) :
    repeats (xs ++ [x]) = repeats xs + if x ∈ xs then 1 else 0 := by
  simp [repeats, countAt_concat]

theorem late_concat (xs : List α) (x : α) :
    late (xs ++ [x]) = late xs + if x ∉ xs ∧ ∃ y ∈ xs, x < y then 1 else 0 := by
  simp [late, countAt_concat]

theorem toFinset_concat (xs : List α) (x : α) :
    (xs ++ [x]).toFinset = insert x xs.toFinset := by
  ext y
  simp

/-- Every entry is new or a repetition. -/
theorem repeats_add_card (xs : List α) : repeats xs + xs.toFinset.card = xs.length := by
  induction xs using List.reverseRecOn with
  | nil => rfl
  | append_singleton xs x ih =>
    rw [repeats_concat, toFinset_concat, List.length_append, List.length_singleton]
    by_cases h : x ∈ xs
    · rw [if_pos h, Finset.insert_eq_of_mem (by simpa using h)]
      omega
    · rw [if_neg h, Finset.card_insert_of_notMem (by simpa using h)]
      omega

theorem repeats_eq_zero {xs : List α} (h : xs.Nodup) : repeats xs = 0 := by
  have hcard := List.toFinset_card_of_nodup h
  have hsum := repeats_add_card xs
  omega

/-- The first entry is never late. -/
theorem late_lt_card {xs : List α} (h : xs ≠ []) : late xs < xs.toFinset.card := by
  induction xs using List.reverseRecOn with
  | nil => exact absurd rfl h
  | append_singleton xs x ih =>
    rw [late_concat, toFinset_concat]
    by_cases hnil : xs = []
    · subst hnil
      simp
    · have hprev := ih hnil
      by_cases hx : x ∈ xs
      · rw [if_neg (by simp [hx]), Finset.insert_eq_of_mem (by simpa using hx)]
        exact hprev
      · rw [Finset.card_insert_of_notMem (by simpa using hx)]
        split
        next => omega
        next => omega

theorem repeats_map {β : Type} [LinearOrder β] {f : α → β} (hf : Function.Injective f)
    (xs : List α) : repeats (xs.map f) = repeats xs := by
  induction xs using List.reverseRecOn with
  | nil => rfl
  | append_singleton xs x ih =>
    rw [List.map_append, List.map_singleton, repeats_concat, repeats_concat, ih]
    simp only [List.mem_map_of_injective hf]

theorem late_map {β : Type} [LinearOrder β] {f : α → β} (hf : StrictMono f) (xs : List α) :
    late (xs.map f) = late xs := by
  induction xs using List.reverseRecOn with
  | nil => rfl
  | append_singleton xs x ih =>
    rw [List.map_append, List.map_singleton, late_concat, late_concat, ih]
    have hlater : (∃ y ∈ xs.map f, f x < y) ↔ ∃ y ∈ xs, x < y := by simp [hf.lt_iff_lt]
    simp only [List.mem_map_of_injective hf.injective, hlater]

/-- The distinct entries below a number. -/
def below (xs : List α) (lo : α) : Finset α := {k ∈ xs.toFinset | k < lo}

theorem below_eq_empty {xs : List α} {lo : α} (h : ∀ x ∈ xs, lo ≤ x) : below xs lo = ∅ := by
  unfold below
  rw [Finset.filter_eq_empty_iff]
  intro x hx
  exact not_lt.mpr (h x (List.mem_toFinset.mp hx))

variable [LocallyFiniteOrder α]

/-- The numbers of a range that never occur. -/
def missing (xs : List α) (lo hi : α) : Finset α := {k ∈ Finset.Icc lo hi | k ∉ xs}

/-- A range and the entries below it, against the gaps of the range and all the entries. -/
theorem card_missing {xs : List α} (lo : α) {hi : α} (hle : ∀ x ∈ xs, x ≤ hi) :
    (Finset.Icc lo hi).card + (below xs lo).card =
      (missing xs lo hi).card + xs.toFinset.card := by
  have hrange := Finset.card_filter_add_card_filter_not (s := Finset.Icc lo hi) (· ∈ xs)
  have hall := Finset.card_filter_add_card_filter_not (s := xs.toFinset) (· < lo)
  have hsame : ({k ∈ Finset.Icc lo hi | k ∈ xs} : Finset α) = {k ∈ xs.toFinset | ¬k < lo} := by
    ext k
    simp only [Finset.mem_filter, Finset.mem_Icc, List.mem_toFinset, not_lt]
    constructor
    · rintro ⟨⟨h, -⟩, hk⟩
      exact ⟨hk, h⟩
    · rintro ⟨hk, h⟩
      exact ⟨⟨h, hle k hk⟩, hk⟩
  rw [hsame] at hrange
  unfold missing below
  omega

end Order

end ArrivalOrder

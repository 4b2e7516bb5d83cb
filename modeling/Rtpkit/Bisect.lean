import Mathlib.Algebra.Order.Group.Abs
import Mathlib.Data.List.Sort

namespace Bisect

section Search

variable {α : Type} [LinearOrder α]

/-- The loop of `bisect_left`, between the indices `lo` and `hi`. -/
def leftLoop (xs : List α) (x : α) (lo hi : Nat) (hhi : hi ≤ xs.length) : Nat :=
  if _h : lo < hi then
    if xs.get ⟨(lo + hi) / 2, by omega⟩ < x then leftLoop xs x ((lo + hi) / 2 + 1) hi hhi
    else leftLoop xs x lo ((lo + hi) / 2) (by omega)
  else lo
termination_by hi - lo

/-- `bisect_left(xs, x)` -/
def left (xs : List α) (x : α) : Nat := leftLoop xs x 0 xs.length le_rfl

/-- Up to index `k` the entries are below `x`, and from there on they are not. -/
structure Splits (xs : List α) (x : α) (k : Nat) : Prop where
  le_length : k ≤ xs.length
  below : ∀ i (h : i < xs.length), i < k → xs[i] < x
  above : ∀ i (h : i < xs.length), k ≤ i → x ≤ xs[i]

/-- Whatever is below `lo` stays below `x`, and whatever is at or above `hi` stays above it. -/
theorem splits_leftLoop {xs : List α} {x : α} (hs : xs.SortedLE) (lo hi : Nat)
    (hhi : hi ≤ xs.length) (hlohi : lo ≤ hi)
    (hbelow : ∀ i (h : i < xs.length), i < lo → xs[i] < x)
    (habove : ∀ i (h : i < xs.length), hi ≤ i → x ≤ xs[i]) :
    Splits xs x (leftLoop xs x lo hi hhi) := by
  fun_induction leftLoop xs x lo hi hhi with
  | case1 lo hi hhi hlt hless ih =>
    refine ih (by omega) (fun i hi' hlow => ?_) habove
    exact (hs.getElem_le_getElem_of_le (by omega)).trans_lt hless
  | case2 lo hi hhi hlt hnot ih =>
    refine ih (by omega) hbelow fun i hi' hhigh => ?_
    exact (not_lt.mp hnot).trans (hs.getElem_le_getElem_of_le hhigh)
  | case3 lo hi hhi hdone =>
    exact ⟨by omega, hbelow, fun i hi' hhigh => habove i hi' (by omega)⟩

theorem splits_left {xs : List α} (hs : xs.SortedLE) (x : α) : Splits xs x (left xs x) :=
  splits_leftLoop hs 0 xs.length le_rfl (Nat.zero_le _) (fun i _ hi => absurd hi (by omega))
    (fun i hi hle => absurd hi (by omega))

/-- An entry that occurs is found, at the first place where it does. -/
theorem Splits.getElem_of_mem {xs : List α} {x : α} {k : Nat} (h : Splits xs x k)
    (hs : xs.SortedLE) (hx : x ∈ xs) : ∃ hk : k < xs.length, xs[k] = x := by
  obtain ⟨i, hi, heq⟩ := List.getElem_of_mem hx
  have hle : k ≤ i := by
    by_contra hlt
    exact absurd heq (h.below i hi (by omega)).ne
  have hk : k < xs.length := by omega
  refine ⟨hk, le_antisymm ?_ (h.above k hk le_rfl)⟩
  calc xs[k] ≤ xs[i] := hs.getElem_le_getElem_of_le hle
    _ = x := heq

/-- A larger value splits no earlier. -/
theorem Splits.mono {xs : List α} {x y : α} {k l : Nat} (hk : Splits xs x k) (hl : Splits xs y l)
    (hxy : x ≤ y) : k ≤ l := by
  by_contra hlt
  have hbound : l < xs.length := by
    have hle := hk.le_length
    omega
  have hbelow := hk.below l hbound (by omega)
  have habove := hl.above l hbound le_rfl
  exact absurd (hxy.trans habove) (not_le.mpr hbelow)

end Search

section Distance

variable {α : Type} [AddCommGroup α] [LinearOrder α] [IsOrderedAddMonoid α] {xs : List α} {x : α}
  {k : Nat}

theorem Splits.abs_of_below (h : Splits xs x k) {i : Nat} (hi : i < xs.length) (hlt : i < k) :
    |x - xs[i]| = x - xs[i] :=
  abs_of_nonneg (sub_nonneg.mpr (h.below i hi hlt).le)

theorem Splits.abs_of_above (h : Splits xs x k) {i : Nat} (hi : i < xs.length) (hle : k ≤ i) :
    |x - xs[i]| = xs[i] - x := by
  rw [abs_sub_comm]
  exact abs_of_nonneg (sub_nonneg.mpr (h.above i hi hle))

/-- Below the split, later entries are nearer. -/
theorem Splits.abs_anti (h : Splits xs x k) (hs : xs.SortedLE) {i j : Nat} (hij : i ≤ j)
    (hj : j < xs.length) (hlt : j < k) : |x - xs[j]| ≤ |x - xs[i]| := by
  rw [h.abs_of_below hj hlt, h.abs_of_below (by omega) (by omega)]
  exact sub_le_sub_left (hs.getElem_le_getElem_of_le hij) x

/-- From the split on, earlier entries are nearer. -/
theorem Splits.abs_mono (h : Splits xs x k) (hs : xs.SortedLE) {i j : Nat} (hij : i ≤ j)
    (hj : j < xs.length) (hle : k ≤ i) : |x - xs[i]| ≤ |x - xs[j]| := by
  rw [h.abs_of_above (by omega) hle, h.abs_of_above hj (by omega)]
  exact sub_le_sub_right (hs.getElem_le_getElem_of_le hij) x

end Distance

end Bisect

import Mathlib.Algebra.BigOperators.Intervals
import Mathlib.Algebra.BigOperators.Ring.Finset
import Mathlib.Algebra.Order.BigOperators.Group.Finset
import Mathlib.Algebra.Order.Field.Basic
import Mathlib.Data.Finset.Max
import Mathlib.Tactic.FieldSimp
import Mathlib.Tactic.Linarith
import Mathlib.Tactic.Positivity
import Mathlib.Tactic.Ring

/-- Exponential smoothing: each input moves the estimate by one part in `d` of the way to it. -/
def smoothed {K : Type} [Field K] (d : K) (x : ℕ → K) : ℕ → K
  | 0 => 0
  | n + 1 => smoothed d x n + (x (n + 1) - smoothed d x n) / d

namespace Smoothing

variable {K : Type} [Field K]

theorem smoothed_congr {d : K} {x y : ℕ → K} {n : ℕ} (h : ∀ i ∈ Finset.Icc 1 n, x i = y i) :
    smoothed d x n = smoothed d y n := by
  induction n with
  | zero => rfl
  | succ n ih =>
    have hbefore : ∀ i ∈ Finset.Icc 1 n, x i = y i := by
      intro i hi
      rw [Finset.mem_Icc] at hi
      exact h i (Finset.mem_Icc.mpr ⟨hi.1, by omega⟩)
    rw [smoothed, smoothed, ih hbefore, h (n + 1) (Finset.mem_Icc.mpr ⟨by omega, le_rfl⟩)]

/-- The estimate is a weighted sum of the inputs, in which older ones weigh less and less. -/
theorem smoothed_eq_sum (d : K) (x : ℕ → K) (n : ℕ) :
    smoothed d x n = ∑ i ∈ Finset.Icc 1 n, x i / d * (1 - 1 / d) ^ (n - i) := by
  induction n with
  | zero => rfl
  | succ n ih =>
    have hold : ∑ i ∈ Finset.Icc 1 n, x i / d * (1 - 1 / d) ^ (n + 1 - i) =
        (1 - 1 / d) * ∑ i ∈ Finset.Icc 1 n, x i / d * (1 - 1 / d) ^ (n - i) := by
      rw [Finset.mul_sum]
      refine Finset.sum_congr rfl fun i hi => ?_
      rw [Nat.succ_sub (Finset.mem_Icc.mp hi).2, pow_succ]
      ring
    rw [Finset.sum_Icc_succ_top (by omega), hold, ← ih, Nat.sub_self, pow_zero, smoothed]
    ring

section Order

variable [LinearOrder K] [IsStrictOrderedRing K] {d : K} {x : ℕ → K} {n : ℕ}

theorem weight_pos (hd : 1 < d) : 0 < 1 - 1 / d := by
  rw [sub_pos, div_lt_one (zero_lt_one.trans hd)]
  exact hd

theorem smoothed_nonneg (hd : 1 < d) (hx : ∀ i ∈ Finset.Icc 1 n, 0 ≤ x i) :
    0 ≤ smoothed d x n := by
  have hweight := weight_pos hd
  have hd0 := zero_lt_one.trans hd
  rw [smoothed_eq_sum]
  refine Finset.sum_nonneg fun i hi => ?_
  have hi := hx i hi
  positivity

theorem smoothed_le {bound : K} (hd : 1 < d) (hbound : 0 ≤ bound)
    (hx : ∀ i ∈ Finset.Icc 1 n, x i ≤ bound) : smoothed d x n ≤ bound := by
  induction n with
  | zero => exact hbound
  | succ n ih =>
    have hd0 := zero_lt_one.trans hd
    have hbefore : smoothed d x n ≤ bound := by
      refine ih fun i hi => hx i ?_
      rw [Finset.mem_Icc] at hi ⊢
      omega
    have hlast : x (n + 1) ≤ bound := hx (n + 1) (Finset.mem_Icc.mpr ⟨by omega, le_rfl⟩)
    -- the new estimate is a mean of the old one and the input
    calc smoothed d x (n + 1)
        = smoothed d x n * (1 - 1 / d) + x (n + 1) * (1 / d) := by
          rw [smoothed]
          ring
      _ ≤ bound * (1 - 1 / d) + bound * (1 / d) :=
          add_le_add (mul_le_mul_of_nonneg_right hbefore (weight_pos hd).le)
            (mul_le_mul_of_nonneg_right hlast (by positivity))
      _ = bound := by ring

theorem exists_smoothed_le (hd : 1 < d) (hx : ∀ i ∈ Finset.Icc 1 n, 0 ≤ x i) (hn : 0 < n) :
    ∃ i ∈ Finset.Icc 1 n, smoothed d x n ≤ x i := by
  obtain ⟨i, hi, hmax⟩ := (Finset.Icc 1 n).exists_max_image x
    ⟨1, Finset.mem_Icc.mpr ⟨le_rfl, hn⟩⟩
  exact ⟨i, hi, smoothed_le hd (hx i hi) hmax⟩

theorem smoothed_eq_zero_iff (hd : 1 < d) (hx : ∀ i ∈ Finset.Icc 1 n, 0 ≤ x i) :
    smoothed d x n = 0 ↔ ∀ i ∈ Finset.Icc 1 n, x i = 0 := by
  have hweight := weight_pos hd
  have hd0 := zero_lt_one.trans hd
  rw [smoothed_eq_sum, Finset.sum_eq_zero_iff_of_nonneg]
  · refine forall₂_congr fun i _ => ?_
    rw [mul_eq_zero, div_eq_zero_iff]
    simp only [hd0.ne', (pow_pos hweight _).ne', or_false]
  · intro i hi
    have hi := hx i hi
    positivity

end Order

end Smoothing

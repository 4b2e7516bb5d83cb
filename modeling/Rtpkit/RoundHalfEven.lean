import Mathlib.Algebra.Order.Floor.Ring
import Mathlib.Data.Rat.Floor
import Mathlib.Tactic.Linarith

section Rounding

variable {α : Type*} [Field α] [LinearOrder α] [FloorRing α]

/-- The nearest integer, and of two nearest ones the even one. -/
def roundHalfEven (x : α) : ℤ :=
  if x - ⌊x⌋ < 1 / 2 then ⌊x⌋
  else if 1 / 2 < x - ⌊x⌋ then ⌊x⌋ + 1
  else if ⌊x⌋ % 2 = 0 then ⌊x⌋
  else ⌊x⌋ + 1

/-- The integer part, which forgets the fraction on either side of zero. -/
def truncate (x : α) : ℤ := if x < 0 then ⌈x⌉ else ⌊x⌋

theorem truncate_of_nonneg {x : α} (h : 0 ≤ x) : truncate x = ⌊x⌋ := if_neg (not_lt.mpr h)

theorem roundHalfEven_eq_or (x : α) :
    (roundHalfEven x = ⌊x⌋ ∧ x - ⌊x⌋ ≤ 1 / 2) ∨
      (roundHalfEven x = ⌊x⌋ + 1 ∧ 1 / 2 ≤ x - ⌊x⌋) := by
  unfold roundHalfEven
  split
  next hlow => exact .inl ⟨rfl, hlow.le⟩
  next hlow =>
    split
    next hhigh => exact .inr ⟨rfl, hhigh.le⟩
    next hhigh =>
      split
      next => exact .inl ⟨rfl, not_lt.mp hhigh⟩
      next => exact .inr ⟨rfl, not_lt.mp hlow⟩

theorem floor_le_roundHalfEven (x : α) : ⌊x⌋ ≤ roundHalfEven x := by
  rcases roundHalfEven_eq_or x with ⟨h, -⟩ | ⟨h, -⟩
  · omega
  · omega

theorem roundHalfEven_le_floor_add_one (x : α) : roundHalfEven x ≤ ⌊x⌋ + 1 := by
  rcases roundHalfEven_eq_or x with ⟨h, -⟩ | ⟨h, -⟩
  · omega
  · omega

theorem roundHalfEven_nonneg {x : α} (h : 0 ≤ x) : 0 ≤ roundHalfEven x :=
  (Int.floor_nonneg.mpr h).trans (floor_le_roundHalfEven x)

/-- A number below an integer is not rounded beyond it. -/
theorem roundHalfEven_le {x : α} {n : ℤ} (h : x < n) : roundHalfEven x ≤ n := by
  have hfloor := Int.floor_lt.mpr h
  have hround := roundHalfEven_le_floor_add_one x
  omega

variable [IsStrictOrderedRing α]

theorem abs_roundHalfEven_sub_le (x : α) : |(roundHalfEven x : α) - x| ≤ 1 / 2 := by
  have hlow := Int.floor_le x
  have hhigh := Int.lt_floor_add_one x
  rw [abs_le]
  rcases roundHalfEven_eq_or x with ⟨h, hhalf⟩ | ⟨h, hhalf⟩
  · rw [h]
    constructor
    · linarith
    · linarith
  · rw [h]
    push_cast
    constructor
    · linarith
    · linarith

theorem roundHalfEven_intCast (n : ℤ) : roundHalfEven (n : α) = n := by
  rcases roundHalfEven_eq_or (n : α) with ⟨h, -⟩ | ⟨-, hhalf⟩
  · rw [h, Int.floor_intCast]
  · rw [Int.floor_intCast, sub_self] at hhalf
    linarith

/-- Rounding commutes with a shift by an even integer, ties included. -/
theorem roundHalfEven_add_even (x : α) {n : ℤ} (hn : n % 2 = 0) :
    roundHalfEven (x + n) = roundHalfEven x + n := by
  have hsub : x + n - ((⌊x⌋ + n : ℤ) : α) = x - ⌊x⌋ := by
    push_cast
    linarith
  have hparity : (⌊x⌋ + n) % 2 = 0 ↔ ⌊x⌋ % 2 = 0 := by omega
  unfold roundHalfEven
  rw [Int.floor_add_intCast, hsub]
  simp only [hparity]
  split
  next => rfl
  split
  next => omega
  split
  next => rfl
  next => omega

/-- Rounding to multiples of a step moves a number by half a step at most. -/
theorem abs_roundHalfEven_div_sub_le (x : α) {scale : α} (h : 0 < scale) :
    |(roundHalfEven (x * scale) : α) / scale - x| ≤ 1 / (2 * scale) := by
  have hround := abs_roundHalfEven_sub_le (x * scale)
  have hdiv : (roundHalfEven (x * scale) : α) / scale - x =
      ((roundHalfEven (x * scale) : α) - x * scale) / scale := by
    rw [sub_div, mul_div_cancel_right₀ _ h.ne']
  rw [hdiv, abs_div, abs_of_pos h, one_div, mul_inv, ← one_div, div_eq_mul_inv]
  exact mul_le_mul_of_nonneg_right hround (inv_nonneg.mpr h.le)

end Rounding

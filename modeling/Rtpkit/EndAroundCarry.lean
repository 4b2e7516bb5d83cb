import Mathlib.Data.Nat.ModEq
import Mathlib.Logic.Function.Iterate

namespace EndAroundCarry

/-- Adds what is carried out of the base to what is left below it. -/
def addBack (b total : Nat) : Nat := total % b + total / b

theorem addBack_lt {b total : Nat} (hb : 1 < b) (h : b ≤ total) : addBack b total < total := by
  have hq : 0 < total / b := Nat.div_pos h (by omega)
  have hmul : 2 * (total / b) ≤ b * (total / b) := Nat.mul_le_mul_right _ hb
  have hsplit := Nat.div_add_mod total b
  rw [addBack]
  omega

/-- Carries are added back until the total is below the base. -/
def fold (b total : Nat) : Nat :=
  if _h : 1 < b ∧ b ≤ total then fold b (addBack b total) else total
termination_by total
decreasing_by exact addBack_lt _h.1 _h.2

variable {b : Nat}

theorem addBack_modEq (hb : 1 < b) (total : Nat) : addBack b total ≡ total [MOD b - 1] := by
  have hone : b ≡ 1 [MOD b - 1] := by
    have h := Nat.add_mod_left (b - 1) 1
    rwa [Nat.sub_add_cancel (Nat.le_of_lt hb)] at h
  calc total % b + total / b = 1 * (total / b) + total % b := by omega
    _ ≡ b * (total / b) + total % b [MOD b - 1] := ((hone.symm.mul_right _).add_right _)
    _ = total := Nat.div_add_mod total b

theorem addBack_pos {total : Nat} (h : 0 < total) : 0 < addBack b total := by
  rw [addBack]
  by_contra hzero
  have hzero : total % b = 0 ∧ total / b = 0 := Nat.add_eq_zero_iff.mp (Nat.eq_zero_of_not_pos hzero)
  have hsplit := Nat.div_add_mod total b
  rw [hzero.1, hzero.2] at hsplit
  omega

/-- The three facts of a fold: it ends below the base, at the same residue, and at zero only from
zero. -/
theorem fold_spec (hb : 1 < b) (total : Nat) :
    fold b total < b ∧ fold b total ≡ total [MOD b - 1] ∧ (0 < total → 0 < fold b total) := by
  induction total using Nat.strongRecOn with
  | _ total ih =>
    rw [fold]
    by_cases hcarry : b ≤ total
    · obtain ⟨hlt, hmod, hpos⟩ := ih _ (addBack_lt hb hcarry)
      rw [dif_pos ⟨hb, hcarry⟩]
      exact ⟨hlt, hmod.trans (addBack_modEq hb total), fun h => hpos (addBack_pos h)⟩
    · rw [dif_neg fun h => hcarry h.2]
      exact ⟨by omega, Nat.ModEq.refl _, fun h => h⟩

/-- The loop comes to its end after finitely many turns. -/
theorem exists_iterate_addBack (hb : 1 < b) (total : Nat) :
    ∃ turns, (addBack b)^[turns] total = fold b total ∧
      ∀ i < turns, b ≤ (addBack b)^[i] total := by
  induction total using Nat.strongRecOn with
  | _ total ih =>
    rw [fold]
    by_cases hcarry : b ≤ total
    · obtain ⟨turns, hend, hbefore⟩ := ih _ (addBack_lt hb hcarry)
      rw [dif_pos ⟨hb, hcarry⟩]
      refine ⟨turns + 1, hend, ?_⟩
      intro i hi
      cases i with
      | zero => exact hcarry
      | succ i => exact hbefore i (by omega)
    · rw [dif_neg fun h => hcarry h.2]
      exact ⟨0, rfl, fun i hi => absurd hi (Nat.not_lt_zero i)⟩

/-- A total folds to all ones exactly when it is a positive multiple of the base less one. -/
theorem fold_eq_top_iff (hb : 1 < b) {total : Nat} :
    fold b total = b - 1 ↔ 0 < total ∧ total % (b - 1) = 0 := by
  obtain ⟨hlt, hmod, hpos⟩ := fold_spec hb total
  constructor
  · intro htop
    rw [htop, Nat.ModEq, Nat.mod_self] at hmod
    refine ⟨Nat.pos_of_ne_zero ?_, hmod.symm⟩
    rintro rfl
    rw [fold, dif_neg (by omega)] at htop
    omega
  · rintro ⟨htotal, hzero⟩
    rw [Nat.ModEq, hzero] at hmod
    have hfold := hpos htotal
    by_contra hne
    rw [Nat.mod_eq_of_lt (by omega)] at hmod
    omega

/-- Adding the complement of the sum gives all ones. -/
theorem fold_add_complement (hb : 1 < b) (total : Nat) :
    fold b (total + (b - 1 - fold b total)) = b - 1 := by
  obtain ⟨hlt, hmod, hpos⟩ := fold_spec hb total
  refine (fold_eq_top_iff hb).mpr ⟨?_, ?_⟩
  · by_contra hzero
    obtain rfl : total = 0 := by omega
    rw [fold, dif_neg (by omega)] at hzero
    omega
  · have hsum := hmod.symm.add_right (b - 1 - fold b total)
    rw [Nat.ModEq, Nat.add_sub_cancel' (by omega), Nat.mod_self] at hsum
    exact hsum

end EndAroundCarry

import Mathlib.Data.Nat.ModEq

namespace Alignment

/-- `pad` is what `n` lacks to a multiple of `a`, and no whole multiple more. -/
structure Fills (a n pad : Nat) : Prop where
  lt : pad < a
  whole : (n + pad) % a = 0

def fill (a n : Nat) : Nat := (a - n % a) % a

variable {a n pad : Nat}

/-- There is one way only to a multiple. -/
theorem Fills.unique {pad' : Nat} (h : Fills a n pad) (h' : Fills a n pad') : pad = pad' := by
  have hmod : n + pad ≡ n + pad' [MOD a] := h.whole.trans h'.whole.symm
  exact (Nat.ModEq.add_left_cancel' n hmod).eq_of_lt_of_lt h.lt h'.lt

theorem fill_lt (a n : Nat) [NeZero a] : fill a n < a := Nat.mod_lt _ (Nat.pos_of_neZero a)

theorem add_fill_mod (a n : Nat) [NeZero a] : (n + fill a n) % a = 0 := by
  have hlt := Nat.mod_lt n (Nat.pos_of_neZero a)
  rw [fill, Nat.add_mod_mod, ← Nat.mod_add_mod, Nat.add_sub_cancel' (Nat.le_of_lt hlt), Nat.mod_self]

theorem fills_fill (a n : Nat) [NeZero a] : Fills a n (fill a n) := ⟨fill_lt a n, add_fill_mod a n⟩

theorem Fills.eq_fill [NeZero a] (h : Fills a n pad) : pad = fill a n := h.unique (fills_fill a n)

theorem fill_eq_zero [NeZero a] (h : n % a = 0) : fill a n = 0 :=
  (Fills.eq_fill ⟨Nat.pos_of_neZero a, h⟩).symm

/-- Whole multiples in front change nothing. -/
theorem fill_add [NeZero a] {k : Nat} (hk : k % a = 0) (n : Nat) : fill a (k + n) = fill a n := by
  refine (Fills.eq_fill ⟨fill_lt a n, ?_⟩).symm
  rw [Nat.add_assoc, Nat.add_mod, hk, add_fill_mod]
  exact Nat.zero_mod a

end Alignment

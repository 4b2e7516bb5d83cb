import Mathlib.Data.List.Basic

namespace Chunk

variable {α : Type}

/-- The entries from index `a` up to index `b`, clipped to the list. -/
def slice (data : List α) (a b : Nat) : List α := (data.take b).drop a

/-- The entries of `chunk` stand in `data` from index `off` on. -/
def StandsAt (data : List α) (off : Nat) (chunk : List α) : Prop :=
  ∃ before after, data = before ++ chunk ++ after ∧ before.length = off

@[simp] theorem length_slice (data : List α) (a b : Nat) :
    (slice data a b).length = min b data.length - a := by
  simp [slice]

theorem length_slice_add {data : List α} {a n : Nat} (h : a + n ≤ data.length) :
    (slice data a (a + n)).length = n := by
  rw [length_slice]
  omega

theorem slice_append_slice (data : List α) {a b c : Nat} (hab : a ≤ b) (hbc : b ≤ c) :
    slice data a b ++ slice data b c = slice data a c := by
  apply List.ext_getElem?
  intro i
  simp only [slice, List.getElem?_append, List.getElem?_drop, List.getElem?_take, List.length_drop,
    List.length_take]
  split
  next h => rw [if_pos (by omega), if_pos (by omega)]
  next h =>
    by_cases hb : b ≤ data.length
    · have hi : b + (i - (b - a)) = a + i := by omega
      rw [Nat.min_eq_left hb, hi]
    · rw [List.getElem?_eq_none (show data.length ≤ b + (i - (min b data.length - a)) by omega),
        List.getElem?_eq_none (show data.length ≤ a + i by omega)]
      simp

@[simp] theorem slice_zero_length (data : List α) : slice data 0 data.length = data := by
  simp [slice]

theorem slice_zero (data : List α) (b : Nat) : slice data 0 b = data.take b := rfl

theorem slice_slice (data : List α) (a b c d : Nat) (h : a + d ≤ b) :
    slice (slice data a b) c d = slice data (a + c) (a + d) := by
  apply List.ext_getElem?
  intro i
  simp only [slice, List.getElem?_drop, List.getElem?_take]
  by_cases hd : c + i < d
  · rw [if_pos hd, if_pos (by omega), if_pos (by omega), Nat.add_assoc]
  · rw [if_neg hd, if_neg (by omega)]

theorem slice_drop (data : List α) (off a b : Nat) :
    slice (data.drop off) a b = slice data (off + a) (off + b) := by
  apply List.ext_getElem?
  intro i
  simp only [slice, List.getElem?_drop, List.getElem?_take, Nat.add_assoc]
  by_cases hb : a + i < b
  · rw [if_pos hb, if_pos (by omega)]
  · rw [if_neg hb, if_neg (by omega)]

theorem slice_take (data : List α) (a : Nat) {b n : Nat} (h : b ≤ n) :
    slice (data.take n) a b = slice data a b := by
  rw [slice, slice, List.take_take, Nat.min_eq_left h]

/-- A slice of the front does not depend on what follows. -/
theorem slice_append_left {x : List α} {b : Nat} (h : b ≤ x.length) (y : List α) (a : Nat) :
    slice (x ++ y) a b = slice x a b := by
  rw [slice, slice, List.take_append_of_le_length h]

theorem StandsAt.le_length {data chunk : List α} {off : Nat} (h : StandsAt data off chunk) :
    off + chunk.length ≤ data.length := by
  obtain ⟨before, after, rfl, rfl⟩ := h
  simp

theorem StandsAt.slice_eq {data chunk : List α} {off : Nat} (h : StandsAt data off chunk) :
    slice data off (off + chunk.length) = chunk := by
  obtain ⟨before, after, rfl, rfl⟩ := h
  simp [slice, List.take_append]

theorem standsAt_slice (data : List α) {a b : Nat} (hab : a ≤ b) (hb : b ≤ data.length) :
    StandsAt data a (slice data a b) := by
  refine ⟨data.take a, data.drop b, ?_, by simp; omega⟩
  have h := slice_append_slice data (Nat.zero_le a) hab
  rw [slice_zero, slice_zero] at h
  rw [h, List.take_append_drop]

theorem standsAt_iff {data chunk : List α} {off : Nat} :
    StandsAt data off chunk ↔
      off + chunk.length ≤ data.length ∧ slice data off (off + chunk.length) = chunk := by
  constructor
  · exact fun h => ⟨h.le_length, h.slice_eq⟩
  · rintro ⟨hle, heq⟩
    have h := standsAt_slice data (Nat.le_add_right off chunk.length) hle
    rwa [heq] at h

theorem standsAt_self (data : List α) : StandsAt data 0 data :=
  ⟨[], [], by simp, rfl⟩

@[simp] theorem standsAt_nil {data : List α} {off : Nat} :
    StandsAt data off [] ↔ off ≤ data.length := by
  simp [standsAt_iff, slice]

/-- A concatenation stands at an offset when its parts stand one after the other. -/
@[simp] theorem standsAt_append {data x y : List α} {off : Nat} :
    StandsAt data off (x ++ y) ↔ StandsAt data off x ∧ StandsAt data (off + x.length) y := by
  constructor
  · rintro ⟨before, after, rfl, rfl⟩
    exact ⟨⟨before, y ++ after, by simp, rfl⟩, ⟨before ++ x, after, by simp, by simp⟩⟩
  · rintro ⟨hx, hy⟩
    have hlen := hy.le_length
    refine standsAt_iff.mpr ⟨by simpa [Nat.add_assoc] using hlen, ?_⟩
    have h := slice_append_slice data (Nat.le_add_right off x.length)
      (Nat.le_add_right (off + x.length) y.length)
    rw [hx.slice_eq, hy.slice_eq] at h
    rw [List.length_append, ← Nat.add_assoc, ← h]

theorem standsAt_singleton {data : List α} {x : α} {off : Nat} :
    StandsAt data off [x] ↔ data[off]? = some x := by
  constructor
  · rintro ⟨before, after, rfl, rfl⟩
    simp
  · intro h
    obtain ⟨hlt, heq⟩ := List.getElem?_eq_some_iff.mp h
    refine ⟨data.take off, data.drop (off + 1), ?_, by simp; omega⟩
    rw [← heq]
    simp

theorem StandsAt.trans {data chunk piece : List α} {off i : Nat}
    (h : StandsAt data off chunk) (hp : StandsAt chunk i piece) : StandsAt data (off + i) piece := by
  obtain ⟨before, after, rfl, rfl⟩ := h
  obtain ⟨front, back, rfl, rfl⟩ := hp
  exact ⟨before ++ front, back ++ after, by simp, by simp⟩

/-- What stands inside a slice of the data is what stands there in the data. -/
theorem StandsAt.in_slice {data chunk : List α} {a b i : Nat} (h : StandsAt data (a + i) chunk)
    (hb : a + i + chunk.length ≤ b) : StandsAt (slice data a b) i chunk := by
  have hle := h.le_length
  refine standsAt_iff.mpr ⟨by rw [length_slice]; omega, ?_⟩
  rw [slice_slice data a b i (i + chunk.length) (by omega)]
  have heq := h.slice_eq
  rwa [Nat.add_assoc] at heq

/-- In a concatenation of chunks of one width, the chunks stand at the multiples of it. -/
theorem standsAt_flatten {chunks : List (List α)} {width : Nat}
    (hw : ∀ c ∈ chunks, c.length = width) {i : Nat} (hi : i < chunks.length) :
    StandsAt chunks.flatten (i * width) chunks[i] := by
  induction chunks generalizing i with
  | nil => simp at hi
  | cons c cs ih =>
    cases i with
    | zero => exact ⟨[], cs.flatten, by simp, by simp⟩
    | succ i =>
      have hc := hw c (by simp)
      have htail := ih (fun d hd => hw d (by simp [hd])) (by simpa using hi)
      have hcs : StandsAt (c :: cs).flatten c.length cs.flatten := ⟨c, [], by simp, rfl⟩
      have h := hcs.trans htail
      have hoff : c.length + i * width = (i + 1) * width := by rw [hc, Nat.succ_mul, Nat.add_comm]
      simpa [hoff] using h

/-- Chunks of one width that stand at the multiples of it stand as a concatenation. -/
theorem standsAt_flatten_of_each {data : List α} {chunks : List (List α)} {off : Nat}
    (width : Nat)
    (hw : ∀ c ∈ chunks, c.length = width)
    (h : ∀ i (hi : i < chunks.length), StandsAt data (off + i * width) chunks[i])
    (hoff : off ≤ data.length) : StandsAt data off chunks.flatten := by
  induction chunks generalizing off with
  | nil => simpa using hoff
  | cons c cs ih =>
    have hc := hw c (by simp)
    have hfirst := h 0 (Nat.zero_lt_succ _)
    rw [Nat.zero_mul, Nat.add_zero, List.getElem_cons_zero] at hfirst
    have hle := hfirst.le_length
    rw [List.flatten_cons, standsAt_append]
    refine ⟨hfirst, ih (fun d hd => hw d (by simp [hd])) ?_ hle⟩
    intro i hi
    have hnext := h (i + 1) (by simpa using hi)
    have hoffset : off + (i + 1) * width = off + c.length + i * width := by
      rw [hc, Nat.succ_mul]
      omega
    simpa [hoffset] using hnext

theorem StandsAt.eq_of_length {data chunk : List α} (h : StandsAt data 0 chunk)
    (hlen : chunk.length = data.length) : data = chunk := by
  have heq := h.slice_eq
  rwa [Nat.zero_add, hlen, slice_zero_length] at heq

/-- Data that agrees with `x ++ f ++ y` outside the middle part differs from it in that part
only. -/
theorem agrees_outside_iff {d x f y : List α} :
    (d.length = (x ++ (f ++ y)).length ∧
      ∀ i < d.length, i < x.length ∨ x.length + f.length ≤ i → d[i]? = (x ++ (f ++ y))[i]?) ↔
    ∃ g : List α, g.length = f.length ∧ d = x ++ (g ++ y) := by
  constructor
  · rintro ⟨hlen, hsame⟩
    simp only [List.length_append] at hlen
    refine ⟨slice d x.length (x.length + f.length), by rw [length_slice]; omega, ?_⟩
    apply List.ext_getElem?
    intro i
    by_cases hi : i < d.length
    · rcases Nat.lt_or_ge i x.length with hx | hx
      · rw [hsame i hi (.inl hx), List.getElem?_append_left hx, List.getElem?_append_left hx]
      · rw [List.getElem?_append_right hx]
        rcases Nat.lt_or_ge i (x.length + f.length) with hf | hf
        · rw [List.getElem?_append_left (by rw [length_slice]; omega)]
          simp only [slice, List.getElem?_drop, List.getElem?_take]
          rw [if_pos (by omega), Nat.add_sub_cancel' hx]
        · rw [List.getElem?_append_right (by rw [length_slice]; omega), hsame i hi (.inr hf),
            List.getElem?_append_right hx, List.getElem?_append_right (by omega), length_slice]
          congr 1
          omega
    · rw [List.getElem?_eq_none (by omega), List.getElem?_eq_none]
      simp only [List.length_append, length_slice]
      omega
  · rintro ⟨g, hg, rfl⟩
    refine ⟨by simp [hg], ?_⟩
    intro i _ hi
    rcases hi with hx | hf
    · rw [List.getElem?_append_left hx, List.getElem?_append_left hx]
    · rw [List.getElem?_append_right (by omega), List.getElem?_append_right (by omega),
        List.getElem?_append_right (by omega), List.getElem?_append_right (by omega), hg]

end Chunk

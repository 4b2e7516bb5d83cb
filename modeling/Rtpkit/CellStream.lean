import Rtpkit.Chunk
import Rtpkit.Framing

open Chunk

/-- A stream of padding entries and of cells, each with a header of fixed length that tells what
the cell is and how many entries of content follow, or that the stream ends. -/
structure CellFormat (β ι α : Type) where
  isPadding : β → Bool
  headerLength : Nat
  header : List β → Option (ι × Nat)
  item : ι → List β → α
  headerLength_pos : 0 < headerLength
  header_append : ∀ {x : List β}, headerLength ≤ x.length → ∀ y, header (x ++ y) = header x
  header_short : ∀ {x : List β}, x.length < headerLength → header x = none

namespace CellFormat

variable {β ι α : Type} (format : CellFormat β ι α)

/-- What stands at the head of the entries left. -/
def head (rest : List β) : Head Unit α Unit :=
  match rest with
  | [] => .cut ()
  | b :: tail =>
    if format.isPadding b then .unit 1 () none none
    else
      match format.header (b :: tail) with
      | none => .cut ()
      | some (id, n) =>
        if (b :: tail).length < format.headerLength + n then .cut ()
        else .unit (format.headerLength + n) () none
          (some (format.item id
            (slice (b :: tail) format.headerLength (format.headerLength + n))))

/-- A cell of some item, from its header to the end of its content. -/
structure Carries (wire : List β) (a : α) : Prop where
  notPadding : ∃ b tail, wire = b :: tail ∧ format.isPadding b = false
  header : ∃ id, format.header wire = some (id, wire.length - format.headerLength) ∧
    a = format.item id (wire.drop format.headerLength)
  headerLength_le : format.headerLength ≤ wire.length

variable {format}

theorem head_padding {b : β} (h : format.isPadding b = true) (tail : List β) :
    format.head (b :: tail) = .unit 1 () none none := if_pos h

theorem head_stop {b : β} {tail : List β} (hb : format.isPadding b = false)
    (h : format.header (b :: tail) = none) : format.head (b :: tail) = .cut () := by
  rw [head, if_neg (by simp [hb]), h]

theorem head_cell {b : β} {tail : List β} {id : ι} {n : Nat} (hb : format.isPadding b = false)
    (h : format.header (b :: tail) = some (id, n)) :
    format.head (b :: tail) =
      if (b :: tail).length < format.headerLength + n then .cut ()
      else .unit (format.headerLength + n) () none
        (some (format.item id
          (slice (b :: tail) format.headerLength (format.headerLength + n)))) := by
  rw [head, if_neg (by simp [hb]), h]

/-- A unit is an entry of padding or a cell that is all there. -/
theorem head_eq_unit {rest : List β} {size : Nat} {objection : Option Unit} {item : Option α} :
    format.head rest = .unit size () objection item ↔ ∃ b tail, rest = b :: tail ∧
      objection = none ∧ ((format.isPadding b = true ∧ size = 1 ∧ item = none) ∨
        (format.isPadding b = false ∧ ∃ id n, format.header rest = some (id, n) ∧
          size = format.headerLength + n ∧ size ≤ rest.length ∧
          item = some (format.item id (slice rest format.headerLength size)))) := by
  cases rest with
  | nil =>
    constructor
    · intro h
      cases h
    · rintro ⟨_, _, h, _⟩
      cases h
  | cons b tail =>
    rw [head]
    by_cases hpad : format.isPadding b = true
    · rw [if_pos hpad]
      constructor
      · intro h
        cases h
        exact ⟨b, tail, rfl, rfl, .inl ⟨hpad, rfl, rfl⟩⟩
      · rintro ⟨_, _, h, rfl, ⟨-, rfl, rfl⟩ | ⟨hno, -⟩⟩
        · rfl
        · cases h
          rw [hpad] at hno
          cases hno
    · have hno : format.isPadding b = false := Bool.not_eq_true _ ▸ hpad
      rw [if_neg hpad]
      cases hheader : format.header (b :: tail) with
      | none =>
        constructor
        · intro h
          cases h
        · rintro ⟨_, _, h, -, ⟨hyes, -⟩ | ⟨-, id, n, hsome, -⟩⟩
          · cases h
            exact absurd hyes hpad
          · cases hsome
      | some found =>
        obtain ⟨id, n⟩ := found
        dsimp only
        by_cases hover : (b :: tail).length < format.headerLength + n
        · rw [if_pos hover]
          constructor
          · intro h
            cases h
          · rintro ⟨_, _, h, -, ⟨hyes, -⟩ | ⟨-, id', n', hsome, rfl, hle, -⟩⟩
            · cases h
              exact absurd hyes hpad
            · cases hsome
              omega
        · rw [if_neg hover]
          constructor
          · intro h
            cases h
            exact ⟨b, tail, rfl, rfl, .inr ⟨hno, id, n, rfl, rfl, Nat.le_of_not_lt hover, rfl⟩⟩
          · rintro ⟨_, _, h, rfl, ⟨hyes, -⟩ | ⟨-, id', n', hsome, rfl, -, rfl⟩⟩
            · cases h
              exact absurd hyes hpad
            · cases hsome
              rfl

theorem header_take {rest : List β} {n : Nat} (h : format.headerLength ≤ (rest.take n).length) :
    format.header (rest.take n) = format.header rest := by
  rw [← format.header_append h, List.take_append_drop]

theorem head_progress {rest : List β} {size : Nat} {objection : Option Unit} {item : Option α}
    (h : format.head rest = .unit size () objection item) : 0 < size ∧ size ≤ rest.length := by
  obtain ⟨b, tail, rfl, -, ⟨-, rfl, -⟩ | ⟨-, id, n, -, rfl, hle, -⟩⟩ := head_eq_unit.mp h
  · exact ⟨Nat.zero_lt_one, Nat.succ_le_succ (Nat.zero_le _)⟩
  · exact ⟨Nat.add_pos_left format.headerLength_pos n, hle⟩

theorem head_stable {rest : List β} {size : Nat} {objection : Option Unit} {item : Option α}
    (h : format.head rest = .unit size () objection item) (more : List β) :
    format.head (rest.take size ++ more) = .unit size () objection item := by
  obtain ⟨b, tail, rfl, rfl, hcases⟩ := head_eq_unit.mp h
  obtain ⟨hpos, hle⟩ := head_progress h
  have htake : (b :: tail).take size = b :: tail.take (size - 1) := by
    cases size with
    | zero => omega
    | succ size => rfl
  have hlen : ((b :: tail).take size).length = size := List.length_take_of_le hle
  refine head_eq_unit.mpr ⟨b, tail.take (size - 1) ++ more, by rw [htake, List.cons_append],
    rfl, ?_⟩
  rcases hcases with hpad | ⟨hno, id, n, hheader, hsize, -, rfl⟩
  · exact .inl hpad
  · refine .inr ⟨hno, id, n, ?_, hsize, ?_, ?_⟩
    · rw [format.header_append (by omega), header_take (by omega), hheader]
    · rw [List.length_append]
      omega
    · rw [slice_append_left (by omega), slice_take _ _ (Nat.le_refl _)]

theorem head_short {rest : List β} {size : Nat} {objection : Option Unit} {item : Option α}
    (h : format.head rest = .unit size () objection item) {k : Nat} (hk : 0 < k) (hlt : k < size) :
    format.head (rest.take k) = .cut () := by
  obtain ⟨b, tail, rfl, -, ⟨-, rfl, -⟩ | ⟨hno, id, n, hheader, rfl, hle, -⟩⟩ := head_eq_unit.mp h
  · omega
  · have hlen : ((b :: tail).take k).length = k := List.length_take_of_le (by omega)
    have htake : (b :: tail).take k = b :: tail.take (k - 1) := by
      cases k with
      | zero => omega
      | succ k => rfl
    by_cases hfull : format.headerLength ≤ k
    · have hsame : format.header ((b :: tail).take k) = some (id, n) := by
        rw [header_take (by omega), hheader]
      rw [htake] at hsame hlen ⊢
      rw [head, if_neg (by simp [hno]), hsame]
      exact if_pos (by omega)
    · have hnone := format.header_short (x := (b :: tail).take k) (by omega)
      rw [htake] at hnone ⊢
      exact head_stop hno hnone

variable (format) in
/-- Cells and padding as units. -/
def framing : Framing Unit β α Unit where
  head _ rest := format.head rest
  progress h := head_progress h
  stable h tail := head_stable h tail
  short h _ hk hlt := ⟨(), head_short h hk hlt⟩

theorem framing_head (rest : List β) : format.framing.head () rest = format.head rest := rfl

section Run

variable {strict : Bool}

theorem run_padding {gap : List β} (h : ∀ b ∈ gap, format.isPadding b = true) (rest : List β) :
    format.framing.run strict () (gap ++ rest) = format.framing.run strict () rest := by
  induction gap with
  | nil => rfl
  | cons b gap ih =>
    have hb : format.framing.head () ([b] ++ (gap ++ rest)) = .unit [b].length () none none :=
      head_padding (h b (by simp)) _
    rw [List.cons_append, ← List.singleton_append, Framing.run_append_unit hb]
    exact ih fun c hc => h c (by simp [hc])

/-- A cell in front of other entries is read first. -/
theorem Carries.run_append {wire : List β} {a : α} (h : format.Carries wire a) (rest : List β) :
    format.framing.run strict () (wire ++ rest) =
      (format.framing.run strict () rest).prepend [a] := by
  obtain ⟨⟨b, tail, hwire, hno⟩, ⟨id, hheader, rfl⟩, hle⟩ := h
  have hunit : format.framing.head () (wire ++ rest) =
      .unit wire.length () none (some (format.item id (wire.drop format.headerLength))) := by
    refine head_eq_unit.mpr ⟨b, tail ++ rest, by rw [hwire, List.cons_append], rfl, .inr
      ⟨hno, id, _, ?_, (Nat.add_sub_cancel' hle).symm, ?_, ?_⟩⟩
    · rw [format.header_append hle, hheader]
    · rw [List.length_append]
      omega
    · rw [slice_append_left (Nat.le_refl _), slice, List.take_length]
  rw [Framing.run_append_unit hunit]
  rfl

/-- Cells are read one after the other, whatever padding stands before each of them. -/
theorem run_spaced {γ : Type} {gap wire : γ → List β} {item : γ → α} {xs : List γ}
    (hgap : ∀ x ∈ xs, ∀ b ∈ gap x, format.isPadding b = true)
    (hwire : ∀ x ∈ xs, format.Carries (wire x) (item x)) (rest : List β) :
    format.framing.run strict () ((xs.map fun x => gap x ++ wire x).flatten ++ rest) =
      (format.framing.run strict () rest).prepend (xs.map item) := by
  induction xs with
  | nil => rfl
  | cons x xs ih =>
    rw [List.map_cons, List.flatten_cons, List.append_assoc, List.append_assoc,
      run_padding (hgap x (by simp)), (hwire x (by simp)).run_append,
      ih (fun y hy => hgap y (by simp [hy])) fun y hy => hwire y (by simp [hy]),
      Yielded.prepend_prepend]
    rfl

end Run

end CellFormat

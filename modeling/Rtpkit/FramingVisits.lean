import Rtpkit.Framing

/-- The failure with which a reader ends at the head of the data left. -/
def Head.Stops {σ α ε : Type} (strict : Bool) (e : ε) : Head σ α ε → Prop
  | .unit _ _ objection _ => strict = true ∧ objection = some e
  | .cut failure => strict = true ∧ failure = e
  | .fatal failure => failure = e

/-- In lenient mode only what no reader gets past ends with a failure. -/
theorem Head.stops_lenient_iff {σ α ε : Type} {head : Head σ α ε} {e : ε} :
    head.Stops false e ↔ head = .fatal e := by
  cases head with
  | unit size after objection item => simp [Stops]
  | cut failure => simp [Stops]
  | fatal failure => simp [Stops]

namespace Framing

variable {σ β α ε : Type} (F : Framing σ β α ε)

/-- The states and the offsets at which a reader of some data begins a turn. -/
inductive Visits (strict : Bool) (start : σ) (data : List β) : σ → Nat → Prop
  | start : Visits strict start data start 0
  | next {s : σ} {off size : Nat} {after : σ} {objection : Option ε} {item : Option α}
      (earlier : Visits strict start data s off)
      (head : F.head s (data.drop off) = .unit size after objection item)
      (quiet : strict = true → objection = none) : Visits strict start data after (off + size)

variable {F} {strict : Bool} {start s : σ} {data : List β} {off : Nat}

theorem Visits.le_length (h : F.Visits strict start data s off) : off ≤ data.length := by
  induction h with
  | start => exact Nat.zero_le _
  | next earlier head quiet ih =>
    have hsize := (F.progress head).2
    rw [List.length_drop] at hsize
    omega

/-- What a reader does from a turn on is the end of what it does with the data. -/
theorem Visits.run_eq (h : F.Visits strict start data s off) :
    ∃ items, F.run strict start data = (F.run strict s (data.drop off)).prepend items := by
  induction h with
  | start => exact ⟨[], rfl⟩
  | next earlier head quiet ih =>
    obtain ⟨items, hrun⟩ := ih
    exact ⟨_, by rw [hrun, run_next head quiet, List.drop_drop, Yielded.prepend_prepend]⟩

theorem Visits.failure_eq (h : F.Visits strict start data s off) :
    (F.run strict start data).failure = (F.run strict s (data.drop off)).failure := by
  obtain ⟨items, hrun⟩ := h.run_eq
  rw [hrun, Yielded.failure_prepend]

/-- The item of a unit that is visited is yielded. -/
theorem Visits.mem_items (h : F.Visits strict start data s off) {size : Nat} {after : σ}
    {objection : Option ε} {a : α}
    (head : F.head s (data.drop off) = .unit size after objection (some a))
    (quiet : strict = true → objection = none) : a ∈ (F.run strict start data).items := by
  obtain ⟨items, hrun⟩ := h.run_eq
  rw [hrun, run_next head quiet, Yielded.items_prepend, Yielded.items_prepend]
  simp

/-- In one turn a reader gets past a unit or ends. -/
theorem run_turn (strict : Bool) (s : σ) {rest : List β} (hne : rest ≠ []) :
    (∃ size after objection item, F.head s rest = .unit size after objection item ∧
      (strict = true → objection = none)) ∨
    ∃ failure, F.run strict s rest = ⟨[], failure⟩ ∧
      ∀ e, failure = some e ↔ (F.head s rest).Stops strict e := by
  cases hhead : F.head s rest with
  | unit size after objection item =>
    by_cases hquiet : strict = true → objection = none
    · exact .inl ⟨size, after, objection, item, rfl, hquiet⟩
    · obtain ⟨rfl, hsome⟩ := Classical.not_imp.mp hquiet
      obtain ⟨e, rfl⟩ := Option.ne_none_iff_exists'.mp hsome
      exact .inr ⟨some e, run_objection hhead, by simp [Head.Stops]⟩
  | cut e =>
    refine .inr ⟨_, run_cut hne hhead, ?_⟩
    cases strict with
    | true => simp [Head.Stops]
    | false => simp [Head.Stops]
  | fatal e => exact .inr ⟨some e, run_fatal hne hhead, by simp [Head.Stops]⟩

/-- What a reader does from a visit on has a property that the ends of the data and the failures
have and that every unit that is visited keeps. -/
theorem Visits.run_induction {p : Nat → Yielded α ε → Prop}
    (hend : ∀ s off failure, F.Visits strict start data s off →
      (∀ e, failure = some e → data.drop off ≠ [] ∧ (F.head s (data.drop off)).Stops strict e) →
      p off ⟨[], failure⟩)
    (hunit : ∀ s off size after objection item y, F.Visits strict start data s off →
      F.head s (data.drop off) = .unit size after objection item →
      (strict = true → objection = none) → p (off + size) y → p off (y.prepend item.toList))
    (h : F.Visits strict start data s off) : p off (F.run strict s (data.drop off)) := by
  induction hn : data.length - off using Nat.strongRecOn generalizing s off with
  | _ n ih =>
    by_cases hne : data.drop off = []
    · rw [hne, run_nil]
      exact hend s off none h fun e he => by cases he
    rcases run_turn strict s hne with ⟨size, after, objection, item, hhead, hquiet⟩ |
      ⟨failure, hrun, hstop⟩
    · have hsize := F.progress hhead
      rw [List.length_drop] at hsize
      have hrest := ih _ (by omega) (h.next hhead hquiet) rfl
      rw [run_next hhead hquiet, List.drop_drop]
      exact hunit s off size after objection item _ h hhead hquiet hrest
    · rw [hrun]
      exact hend s off failure h fun e he => ⟨hne, (hstop e).mp he⟩

theorem Visits.exists_stop {e : ε} (h : F.Visits strict start data s off)
    (he : (F.run strict s (data.drop off)).failure = some e) :
    ∃ s' off', F.Visits strict start data s' off' ∧ data.drop off' ≠ [] ∧
      (F.head s' (data.drop off')).Stops strict e := by
  refine h.run_induction (p := fun _ y => y.failure = some e → ∃ s' off',
    F.Visits strict start data s' off' ∧ data.drop off' ≠ [] ∧
      (F.head s' (data.drop off')).Stops strict e) ?_ ?_ he
  · exact fun s off failure hvisits hstop he => ⟨s, off, hvisits, hstop e he⟩
  · intro s off size after objection item y _ _ _ hrest he
    rw [Yielded.failure_prepend] at he
    exact hrest he

/-- A reader fails as the turn at which it ends. -/
theorem failure_run_iff {e : ε} : (F.run strict start data).failure = some e ↔
    ∃ s off, F.Visits strict start data s off ∧ data.drop off ≠ [] ∧
      (F.head s (data.drop off)).Stops strict e := by
  constructor
  · exact fun h => Visits.start.exists_stop h
  · rintro ⟨s, off, hvisits, hne, hstop⟩
    rw [hvisits.failure_eq]
    rcases run_turn strict s hne with
      ⟨size, after, objection, item, hhead, hquiet⟩ | ⟨failure, hrun, hiff⟩
    · rw [hhead] at hstop
      cases (hquiet hstop.1).symm.trans hstop.2
    · rw [hrun]
      exact (hiff e).mpr hstop

theorem Visits.exists_of_mem {a : α} (h : F.Visits strict start data s off)
    (ha : a ∈ (F.run strict s (data.drop off)).items) :
    ∃ s' off' size after objection, F.Visits strict start data s' off' ∧
      F.head s' (data.drop off') = .unit size after objection (some a) ∧
      (strict = true → objection = none) := by
  refine h.run_induction (p := fun _ y => a ∈ y.items → ∃ s' off' size after objection,
    F.Visits strict start data s' off' ∧
      F.head s' (data.drop off') = .unit size after objection (some a) ∧
      (strict = true → objection = none)) ?_ ?_ ha
  · exact fun _ _ _ _ _ ha => absurd ha List.not_mem_nil
  · intro s off size after objection item y hvisits hhead hquiet hrest ha
    rw [Yielded.items_prepend] at ha
    rcases List.mem_append.mp ha with hitem | hmore
    · rw [Option.mem_toList] at hitem
      cases hitem
      exact ⟨s, off, size, after, objection, hvisits, hhead, hquiet⟩
    · exact hrest hmore

/-- The items that are yielded are those of the units that are visited. -/
theorem mem_run_items {a : α} : a ∈ (F.run strict start data).items ↔
    ∃ s off size after objection, F.Visits strict start data s off ∧
      F.head s (data.drop off) = .unit size after objection (some a) ∧
      (strict = true → objection = none) := by
  constructor
  · exact fun ha => Visits.start.exists_of_mem ha
  · rintro ⟨s, off, size, after, objection, hvisits, hhead, hquiet⟩
    exact hvisits.mem_items hhead hquiet

/-- What holds of the item of every unit holds of all that is yielded. -/
theorem forall_run_items {p : α → Prop}
    (hitem : ∀ s rest size after objection a,
      F.head s rest = .unit size after objection (some a) → p a)
    (strict : Bool) (start : σ) (data : List β) : ∀ a ∈ (F.run strict start data).items, p a := by
  intro a ha
  obtain ⟨s, off, size, after, objection, -, hhead, -⟩ := mem_run_items.mp ha
  exact hitem s _ size after objection a hhead

/-- Where every reader can get past whatever stands at the head, lenient mode never fails. -/
theorem run_lenient_total (hpass : ∀ s rest e, rest ≠ [] → F.head s rest ≠ .fatal e) (start : σ)
    (data : List β) : (F.run false start data).failure = none := by
  refine Option.eq_none_iff_forall_ne_some.mpr fun e he => ?_
  obtain ⟨s, off, -, hne, hstop⟩ := failure_run_iff.mp he
  exact hpass s _ e hne (Head.stops_lenient_iff.mp hstop)

/-- Where every item takes a number of entries, there are no more items than have room. -/
theorem length_run_items {width : Nat}
    (hwidth : ∀ s rest size after objection a,
      F.head s rest = .unit size after objection (some a) → width ≤ size)
    (strict : Bool) (start : σ) (data : List β) :
    (F.run strict start data).items.length * width ≤ data.length := by
  suffices h : 0 + (F.run strict start (data.drop 0)).items.length * width ≤ data.length by
    rwa [Nat.zero_add] at h
  refine (Visits.start : F.Visits strict start data start 0).run_induction
    (p := fun off y => off + y.items.length * width ≤ data.length) ?_ ?_
  · intro s off failure hvisits _
    rw [List.length_nil, Nat.zero_mul]
    exact hvisits.le_length
  · intro s off size after objection item y _ hhead _ hrest
    rw [Yielded.items_prepend, List.length_append, Nat.add_mul]
    cases item with
    | none =>
      rw [Option.toList_none, List.length_nil, Nat.zero_mul]
      omega
    | some a =>
      have hitem := hwidth s _ size after objection a hhead
      rw [Option.toList_some, List.length_singleton, Nat.one_mul]
      omega

end Framing

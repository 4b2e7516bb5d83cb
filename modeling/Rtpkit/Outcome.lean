import Mathlib.Data.List.Forall2

namespace Outcome

variable {ε α β : Type}

/-- Succeeds when the condition holds and fails with the given error otherwise. -/
def require (condition : Prop) [Decidable condition] (failure : ε) : Except ε Unit :=
  if condition then .ok () else .error failure

theorem bind_eq_ok {x : Except ε α} {f : α → Except ε β} {b : β} :
    (x >>= f) = .ok b ↔ ∃ a, x = .ok a ∧ f a = .ok b := by
  cases x with
  | error e => simp [bind, Except.bind]
  | ok a => simp [bind, Except.bind]

theorem bind_ok {a : α} {f : α → Except ε β} : ((.ok a : Except ε α) >>= f) = f a := rfl

theorem bind_error {e : ε} {f : α → Except ε β} : ((.error e : Except ε α) >>= f) = .error e := rfl

theorem pure_eq_ok {a b : α} : (pure a : Except ε α) = .ok b ↔ a = b := by
  simp [pure, Except.pure]

theorem map_eq_ok {f : α → β} {x : Except ε α} {b : β} :
    f <$> x = .ok b ↔ ∃ a, x = .ok a ∧ f a = b := by
  cases x with
  | error e => simp [Functor.map, Except.map]
  | ok a => simp [Functor.map, Except.map]

theorem require_eq_ok {condition : Prop} [Decidable condition] {failure : ε} {u : Unit} :
    require condition failure = .ok u ↔ condition := by
  unfold require
  split
  next h => simp [h]
  next h => simp [h]

theorem require_pos {condition : Prop} [Decidable condition] {failure : ε} (h : condition) :
    require condition failure = .ok () := require_eq_ok.mpr h

theorem require_neg {condition : Prop} [Decidable condition] {failure : ε} (h : ¬condition) :
    require condition failure = .error failure := if_neg h

/-- One check in front of a value. -/
theorem require_pure_eq_ok {condition : Prop} [Decidable condition] {failure : ε} {a b : α} :
    (require condition failure >>= fun _ => pure a) = .ok b ↔ condition ∧ b = a := by
  rw [bind_eq_ok]
  constructor
  · rintro ⟨_, hcondition, hvalue⟩
    exact ⟨require_eq_ok.mp hcondition, (pure_eq_ok.mp hvalue).symm⟩
  · rintro ⟨hcondition, rfl⟩
    exact ⟨(), require_pos hcondition, rfl⟩

/-- A traversal succeeds exactly when every element does. -/
theorem mapM_eq_ok {f : α → Except ε β} {xs : List α} {ys : List β} :
    xs.mapM f = .ok ys ↔ List.Forall₂ (fun x y => f x = .ok y) xs ys := by
  induction xs generalizing ys with
  | nil => cases ys with
    | nil => simp [pure, Except.pure]
    | cons y ys => simp [pure, Except.pure]
  | cons x xs ih =>
    rw [List.mapM_cons, bind_eq_ok]
    constructor
    · rintro ⟨y, hy, h⟩
      obtain ⟨tail, ht, h⟩ := bind_eq_ok.mp h
      cases pure_eq_ok.mp h
      exact List.Forall₂.cons hy (ih.mp ht)
    · intro h
      cases h with
      | cons hy ht => exact ⟨_, hy, bind_eq_ok.mpr ⟨_, ih.mpr ht, rfl⟩⟩

/-- Every value of a traversal comes from some element. -/
theorem mapM_mem {f : α → Except ε β} {xs : List α} {ys : List β} (h : xs.mapM f = .ok ys) :
    ys.length = xs.length ∧ ∀ y ∈ ys, ∃ x ∈ xs, f x = .ok y := by
  have hall := mapM_eq_ok.mp h
  refine ⟨hall.length_eq.symm, ?_⟩
  intro y hy
  obtain ⟨i, hi, rfl⟩ := List.mem_iff_getElem.mp hy
  have hi' : i < xs.length := by rw [hall.length_eq]; exact hi
  exact ⟨xs[i], List.getElem_mem hi', (List.forall₂_iff_get.mp hall).2 i hi' hi⟩

theorem exists_mapM_eq_ok {f : α → Except ε β} {xs : List α}
    (h : ∀ x ∈ xs, ∃ y, f x = .ok y) : ∃ ys, xs.mapM f = .ok ys := by
  induction xs with
  | nil => exact ⟨[], rfl⟩
  | cons x xs ih =>
    obtain ⟨y, hy⟩ := h x (by simp)
    obtain ⟨ys, hys⟩ := ih fun z hz => h z (by simp [hz])
    exact ⟨y :: ys, mapM_eq_ok.mpr (List.Forall₂.cons hy (mapM_eq_ok.mp hys))⟩

/-- A traversal by a function whose success condition and value are known on the elements. -/
theorem mapM_eq_ok_of_mem_spec {f : α → Except ε β} {valid : α → Prop} {g : α → β} {xs : List α}
    (spec : ∀ x ∈ xs, ∀ y, f x = .ok y ↔ valid x ∧ y = g x) {ys : List β} :
    xs.mapM f = .ok ys ↔ (∀ x ∈ xs, valid x) ∧ ys = xs.map g := by
  rw [mapM_eq_ok]
  induction xs generalizing ys with
  | nil => simp
  | cons x xs ih =>
    have hhead := spec x (by simp)
    have htail : ∀ zs, List.Forall₂ (fun x y => f x = .ok y) xs zs ↔
        (∀ z ∈ xs, valid z) ∧ zs = xs.map g := fun zs => ih fun z hz => spec z (by simp [hz])
    constructor
    · intro h
      cases h with
      | cons hy ht =>
        obtain ⟨hx, rfl⟩ := (hhead _).mp hy
        obtain ⟨hxs, rfl⟩ := (htail _).mp ht
        exact ⟨by simpa using ⟨hx, hxs⟩, rfl⟩
    · rintro ⟨hx, rfl⟩
      refine List.Forall₂.cons ((hhead _).mpr ⟨hx x (by simp), rfl⟩) ((htail _).mpr ⟨?_, rfl⟩)
      exact fun z hz => hx z (by simp [hz])

theorem mapM_eq_ok_of_spec {f : α → Except ε β} {valid : α → Prop} {g : α → β}
    (spec : ∀ x y, f x = .ok y ↔ valid x ∧ y = g x) {xs : List α} {ys : List β} :
    xs.mapM f = .ok ys ↔ (∀ x ∈ xs, valid x) ∧ ys = xs.map g :=
  mapM_eq_ok_of_mem_spec fun x _ => spec x

theorem mapM_cons_eq_error {f : α → Except ε β} {x : α} {xs : List α} {e : ε} :
    (x :: xs).mapM f = .error e ↔
      f x = .error e ∨ (∃ y, f x = .ok y) ∧ xs.mapM f = .error e := by
  rw [List.mapM_cons]
  cases f x with
  | error e' => simp [bind, Except.bind]
  | ok y =>
    cases xs.mapM f with
    | error e' => simp [bind, Except.bind]
    | ok ys => simp [bind, Except.bind, pure, Except.pure]

/-- A traversal fails exactly as its first failing element does. -/
theorem mapM_eq_error {f : α → Except ε β} {xs : List α} {e : ε} :
    xs.mapM f = .error e ↔ ∃ before x after, xs = before ++ x :: after ∧
      (∀ z ∈ before, ∃ y, f z = .ok y) ∧ f x = .error e := by
  induction xs with
  | nil => simp [pure, Except.pure]
  | cons x xs ih =>
    rw [mapM_cons_eq_error, ih]
    constructor
    · rintro (hx | ⟨hok, before, z, after, rfl, hbefore, hz⟩)
      · exact ⟨[], x, xs, rfl, by simp, hx⟩
      · exact ⟨x :: before, z, after, rfl, List.forall_mem_cons.mpr ⟨hok, hbefore⟩, hz⟩
    · rintro ⟨before, z, after, heq, hbefore, hz⟩
      cases before with
      | nil =>
        cases heq
        exact .inl hz
      | cons b before =>
        obtain ⟨rfl, rfl⟩ := List.cons.inj heq
        obtain ⟨hok, hbefore⟩ := List.forall_mem_cons.mp hbefore
        exact .inr ⟨hok, before, z, after, rfl, hbefore, hz⟩

/-- Every failure of the computation is an allowed one. -/
def FailsOnly (allowed : ε → Prop) (result : Except ε α) : Prop :=
  ∀ e, result = .error e → allowed e

theorem failsOnly_ok {allowed : ε → Prop} (a : α) :
    FailsOnly allowed (.ok a : Except ε α) := by
  intro e h
  simp at h

theorem failsOnly_error {allowed : ε → Prop} {failure : ε} (h : allowed failure) :
    FailsOnly allowed (.error failure : Except ε α) := by
  intro e he
  cases he
  exact h

theorem failsOnly_require {allowed : ε → Prop} {condition : Prop} [Decidable condition]
    {failure : ε} (h : allowed failure) : FailsOnly allowed (require condition failure) := by
  intro e he
  unfold require at he
  split at he
  next => simp at he
  next => cases he; exact h

theorem failsOnly_bind {allowed : ε → Prop} {x : Except ε α} {f : α → Except ε β}
    (hx : FailsOnly allowed x) (hf : ∀ a, x = .ok a → FailsOnly allowed (f a)) :
    FailsOnly allowed (x >>= f) := by
  cases x with
  | error e =>
    intro e' he
    cases he
    exact hx e rfl
  | ok a => exact hf a rfl

theorem failsOnly_mapM {allowed : ε → Prop} {f : α → Except ε β} {xs : List α}
    (h : ∀ x ∈ xs, FailsOnly allowed (f x)) : FailsOnly allowed (xs.mapM f) := by
  intro e he
  obtain ⟨before, x, after, rfl, -, hx⟩ := mapM_eq_error.mp he
  exact h x (by simp) e hx

theorem failsOnly_map {allowed : ε → Prop} {f : α → β} {x : Except ε α}
    (h : FailsOnly allowed x) : FailsOnly allowed (f <$> x) := by
  cases x with
  | error e => exact fun e' he => h e' (by cases he; rfl)
  | ok a => exact failsOnly_ok (f a)

end Outcome

import Mathlib.Algebra.Ring.Nat
import Mathlib.Data.List.Basic

/-- The exceptions of the functions that draw from a range or from a sequence. -/
inductive DrawError
  | valueError
  | indexError
  deriving DecidableEq, Repr

/-- A source of random numbers with states of type `σ`: a numerator of a fraction over `2 ^ 53`,
and a number below a bound. -/
structure Source (σ : Type) where
  fraction : σ → Fin (2 ^ 53) × σ
  below (n : Nat) (h : 0 < n) : σ → Fin n × σ

/-- A computation that draws from a source, and may raise an exception. -/
abbrev Draw (σ α : Type) := StateT σ (Except DrawError) α

namespace Draw

variable {σ α β : Type}

def raise (e : DrawError) : Draw σ α := fun _ => .error e

section Source

variable (rng : Source σ)

/-- `random()`, as the numerator of a fraction over `2 ^ 53`. -/
def fraction : Draw σ (Fin (2 ^ 53)) := fun s => .ok (rng.fraction s)

/-- `randrange(start, stop)`, for a start that is not negative. -/
def randrange (start : Nat) (stop : Int) : Draw σ Nat :=
  if h : start < stop then fun s =>
    let (n, s) := rng.below (stop - start).toNat (by omega) s
    .ok (start + n.val, s)
  else raise .valueError

/-- `choice(xs)` -/
def choice (xs : List α) : Draw σ α :=
  if h : 0 < xs.length then fun s =>
    let (i, s) := rng.below xs.length h s
    .ok (xs.get i, s)
  else raise .indexError

end Source

/-- Whatever the source draws, a result has the property `p` and an exception the property `q`. -/
def Gives (m : Draw σ α) (p : α → Prop) (q : DrawError → Prop) : Prop :=
  ∀ s, match m s with
    | .ok (a, _) => p a
    | .error e => q e

section Gives

variable {p : α → Prop} {q : DrawError → Prop} {m : Draw σ α}

theorem gives_pure {a : α} (h : p a) : Gives (pure a : Draw σ α) p q := fun _ => h

theorem gives_raise {e : DrawError} (h : q e) : Gives (raise e : Draw σ α) p q := fun _ => h

theorem Gives.bind {f : α → Draw σ β} {r : β → Prop} (hm : Gives m p q)
    (hf : ∀ a, p a → Gives (f a) r q) : Gives (m >>= f) r q := by
  intro s
  have h := hm s
  change match (m s >>= fun x => f x.1 x.2) with
    | .ok (a, _) => r a
    | .error e => q e
  cases hms : m s with
  | error e =>
    rw [hms] at h
    exact h
  | ok x =>
    rw [hms] at h
    exact hf x.1 h x.2

theorem Gives.mono {p' : α → Prop} (hm : Gives m p q) (hp : ∀ a, p a → p' a) : Gives m p' q := by
  intro s
  have h := hm s
  cases hms : m s with
  | error e =>
    rw [hms] at h
    exact h
  | ok x =>
    rw [hms] at h
    exact hp x.1 h

variable (rng : Source σ)

theorem gives_fraction : Gives (fraction rng) (fun _ => True) q := fun _ => trivial

theorem gives_randrange {start : Nat} {stop : Int} (h : stop ≤ start → q .valueError) :
    Gives (randrange rng start stop) (fun n => start ≤ n ∧ (n : Int) < stop) q := by
  unfold randrange
  split
  next hlt =>
    intro s
    have hbelow := (rng.below (stop - start).toNat (by omega) s).1.isLt
    dsimp only
    omega
  next hge => exact gives_raise (h (by omega))

theorem gives_choice {xs : List α} (h : xs ≠ []) : Gives (choice rng xs) (· ∈ xs) q := by
  unfold choice
  rw [dif_pos (List.length_pos_of_ne_nil h)]
  intro s
  exact List.get_mem _ _

end Gives

/-- The source that draws numbers from a script. -/
def scripted : Source (List Nat) where
  fraction script := (Fin.ofNat (2 ^ 53) script.headI, script.tail)
  below n h script := (⟨script.headI % n, Nat.mod_lt _ h⟩, script.tail)

/-- Some script makes the computation return a value, and is used up by it. -/
def Can (m : Draw (List Nat) α) (a : α) : Prop := ∃ script, ∀ rest, m (script ++ rest) = .ok (a, rest)

section Can

variable {m : Draw (List Nat) α} {a : α}

theorem can_pure : Can (pure a) a := ⟨[], fun _ => rfl⟩

theorem Can.bind {f : α → Draw (List Nat) β} {b : β} (hm : Can m a) (hf : Can (f a) b) :
    Can (m >>= f) b := by
  obtain ⟨first, hfirst⟩ := hm
  obtain ⟨second, hsecond⟩ := hf
  refine ⟨first ++ second, fun rest => ?_⟩
  change (m (first ++ second ++ rest) >>= fun x => f x.1 x.2) = _
  rw [List.append_assoc, hfirst]
  exact hsecond rest

theorem can_fraction (n : Fin (2 ^ 53)) : Can (fraction scripted) n := by
  refine ⟨[n.val], fun rest => ?_⟩
  have hdrawn : Fin.ofNat (2 ^ 53) n.val = n := Fin.ext (Nat.mod_eq_of_lt n.isLt)
  rw [fraction, scripted, List.singleton_append]
  exact congrArg (fun drawn => Except.ok (drawn, rest)) hdrawn

theorem can_randrange {start n : Nat} {stop : Int} (hstart : start ≤ n) (hstop : (n : Int) < stop) :
    Can (randrange scripted start stop) n := by
  refine ⟨[n - start], fun rest => ?_⟩
  have hlt : n - start < (stop - start).toNat := by omega
  rw [randrange, dif_pos (by omega)]
  simp only [scripted, List.cons_append, List.nil_append, List.headI_cons, List.tail_cons,
    Nat.mod_eq_of_lt hlt, Nat.add_sub_cancel' hstart]

theorem can_choice {xs : List α} {a : α} (h : a ∈ xs) : Can (choice scripted xs) a := by
  obtain ⟨i, hi, rfl⟩ := List.getElem_of_mem h
  refine ⟨[i], fun rest => ?_⟩
  rw [choice, dif_pos (by omega)]
  simp only [scripted, List.cons_append, List.nil_append, List.headI_cons, List.tail_cons,
    Nat.mod_eq_of_lt hi, List.get_eq_getElem]

end Can

end Draw

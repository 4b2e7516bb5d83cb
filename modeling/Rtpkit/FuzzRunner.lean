import Rtpkit.Errors
import Rtpkit.Framing

namespace Rtpkit

open Outcome

namespace Fuzz

structure FuzzCrash where
  input : Bytes
  exceptionType : String
  message : String
  deriving DecidableEq, Repr

structure FuzzResult where
  casesRun : Nat
  crashes : List FuzzCrash
  deriving DecidableEq, Repr

def FuzzResult.ok (result : FuzzResult) : Bool := result.crashes.isEmpty

/-- What the runner can see of an exception; `isException` is that it is no bare
`BaseException`. -/
structure ExceptionView (ε : Type) where
  typeName : ε → String
  message : ε → String
  isException : ε → Bool

section Runner

variable {ε α : Type} (view : ExceptionView ε) (parse : Bytes → Except ε α) (allowed : ε → Bool)

/-- The loop of `fuzz_parser`, with the result so far. -/
def fuzzLoop : List Bytes → FuzzResult → Except ε FuzzResult
  | [], result => .ok result
  | case :: cases, result =>
    let casesRun := result.casesRun + 1
    match parse case with
    | .ok _ => fuzzLoop cases { result with casesRun := casesRun }
    | .error exc =>
      if allowed exc then fuzzLoop cases { result with casesRun := casesRun }
      else if view.isException exc then
        let crash := {
          input := case
          exceptionType := view.typeName exc
          message := view.message exc }
        fuzzLoop cases { casesRun := casesRun, crashes := result.crashes ++ [crash] }
      else .error exc

/-- The cases may come from a generator, whose exception is not caught. -/
def fuzzParser (cases : Yielded Bytes ε) : Except ε FuzzResult := do
  let result ← fuzzLoop view parse allowed cases.items { casesRun := 0, crashes := [] }
  match cases.failure with
  | none => pure result
  | some exc => .error exc

/-- The exceptions that end the run. -/
def Escapes (case : Bytes) (exc : ε) : Prop :=
  parse case = .error exc ∧ allowed exc = false ∧ view.isException exc = false

def NothingEscapes (cases : List Bytes) : Prop :=
  ∀ case ∈ cases, ∀ exc, ¬Escapes view parse allowed case exc

/-- The exception of the first case that has one which escapes. -/
def FirstEscape (cases : List Bytes) (exc : ε) : Prop :=
  ∃ before case after, cases = before ++ case :: after ∧
    NothingEscapes view parse allowed before ∧ Escapes view parse allowed case exc

/-- The crash that is recorded for a case. -/
def crashOf (case : Bytes) : Option FuzzCrash :=
  match parse case with
  | .ok _ => none
  | .error exc =>
    if allowed exc then none
    else some { input := case, exceptionType := view.typeName exc, message := view.message exc }

variable {view parse allowed} {case : Bytes} {cases : List Bytes}

theorem fuzzLoop_cons_of_escapes {exc : ε} (h : Escapes view parse allowed case exc)
    (result : FuzzResult) : fuzzLoop view parse allowed (case :: cases) result = .error exc := by
  obtain ⟨hparse, hallowed, hbase⟩ := h
  simp [fuzzLoop, hparse, hallowed, hbase]

theorem fuzzLoop_cons (h : ∀ exc, ¬Escapes view parse allowed case exc) (result : FuzzResult) :
    fuzzLoop view parse allowed (case :: cases) result = fuzzLoop view parse allowed cases
      ⟨result.casesRun + 1, result.crashes ++ (crashOf view parse allowed case).toList⟩ := by
  rw [fuzzLoop, crashOf]
  split
  next => simp
  next exc hparse =>
    by_cases hallowed : allowed exc = true
    · simp [hallowed]
    · have hexception : view.isException exc = true := by
        by_contra hbase
        exact h exc ⟨hparse, by simpa using hallowed, by simpa using hbase⟩
      simp [hallowed, hexception]

/-- Without an exception that escapes, every case is run and every crash recorded in order. -/
theorem fuzzLoop_eq (h : NothingEscapes view parse allowed cases)
    (result : FuzzResult) : fuzzLoop view parse allowed cases result =
      .ok ⟨result.casesRun + cases.length,
        result.crashes ++ cases.filterMap (crashOf view parse allowed)⟩ := by
  induction cases generalizing result with
  | nil => simp [fuzzLoop]
  | cons case cases ih =>
    obtain ⟨hcase, hcases⟩ := List.forall_mem_cons.mp h
    have hcrashes : (case :: cases).filterMap (crashOf view parse allowed) =
        (crashOf view parse allowed case).toList ++ cases.filterMap (crashOf view parse allowed) := by
      cases hcrash : crashOf view parse allowed case with
      | none => simp [hcrash]
      | some crash => simp [hcrash]
    rw [fuzzLoop_cons hcase, ih hcases, hcrashes, List.length_cons, List.append_assoc,
      Nat.add_assoc, Nat.add_comm 1]

/-- The first exception that escapes ends the run. -/
theorem fuzzLoop_append_of_escapes {before : List Bytes} {exc : ε}
    (hbefore : NothingEscapes view parse allowed before)
    (h : Escapes view parse allowed case exc) (result : FuzzResult) :
    fuzzLoop view parse allowed (before ++ case :: cases) result = .error exc := by
  induction before generalizing result with
  | nil => exact fuzzLoop_cons_of_escapes h result
  | cons first before ih =>
    obtain ⟨hfirst, hrest⟩ := List.forall_mem_cons.mp hbefore
    rw [List.cons_append, fuzzLoop_cons hfirst, ih hrest]

theorem exists_firstEscape (cases : List Bytes) :
    NothingEscapes view parse allowed cases ∨ ∃ exc, FirstEscape view parse allowed cases exc := by
  induction cases with
  | nil => exact .inl fun _ hmem => absurd hmem (List.not_mem_nil)
  | cons case cases ih =>
    by_cases hcase : ∃ exc, Escapes view parse allowed case exc
    · obtain ⟨exc, hexc⟩ := hcase
      exact .inr ⟨exc, [], case, cases, rfl, fun _ hmem => absurd hmem (List.not_mem_nil), hexc⟩
    · have hcase : ∀ exc, ¬Escapes view parse allowed case exc := not_exists.mp hcase
      rcases ih with hall | ⟨exc, before, escaping, after, rfl, hbefore, hexc⟩
      · exact .inl (List.forall_mem_cons.mpr ⟨hcase, hall⟩)
      · exact .inr ⟨exc, case :: before, escaping, after, rfl,
          List.forall_mem_cons.mpr ⟨hcase, hbefore⟩, hexc⟩

theorem FirstEscape.not_nothingEscapes {exc : ε} (h : FirstEscape view parse allowed cases exc) :
    ¬NothingEscapes view parse allowed cases := by
  obtain ⟨before, case, after, rfl, -, hescape⟩ := h
  exact fun hall => hall case (by simp) exc hescape

theorem fuzzParser_eq {y : Yielded Bytes ε}
    (h : NothingEscapes view parse allowed y.items) :
    fuzzParser view parse allowed y =
      match y.failure with
      | none => .ok ⟨y.items.length, y.items.filterMap (crashOf view parse allowed)⟩
      | some exc => .error exc := by
  rw [fuzzParser, fuzzLoop_eq h, bind_ok, Nat.zero_add, List.nil_append]
  rfl

theorem fuzzParser_of_firstEscape {y : Yielded Bytes ε} {exc : ε}
    (h : FirstEscape view parse allowed y.items exc) :
    fuzzParser view parse allowed y = .error exc := by
  obtain ⟨before, case, after, hitems, hbefore, hescape⟩ := h
  rw [fuzzParser, hitems, fuzzLoop_append_of_escapes hbefore hescape, bind_error]

theorem crashOf_eq_none : crashOf view parse allowed case = none ↔
    ∀ exc, parse case = .error exc → allowed exc = true := by
  rw [crashOf]
  split
  next value hparse => simp [hparse]
  next exc hparse =>
    rw [hparse]
    split
    next hallowed => simp [hallowed]
    next hallowed => simp [hallowed]

end Runner

section Meaning

variable {ε α : Type} (view : ExceptionView ε) (parse : Bytes → Except ε α) (allowed : ε → Bool)

/-- The run ends with a result exactly when nothing escapes from the parser and the cases end by
themselves: then each case was run, and those with an exception that is not allowed are the
crashes, in order. Otherwise it ends with the first exception that escapes. -/
theorem fuzzParser_meaning (cases : Yielded Bytes ε) :
    (∀ result, fuzzParser view parse allowed cases = .ok result ↔
      NothingEscapes view parse allowed cases.items ∧ cases.failure = none ∧
        result = ⟨cases.items.length, cases.items.filterMap (crashOf view parse allowed)⟩) ∧
    (∀ result, fuzzParser view parse allowed cases = .ok result → (result.ok = true ↔
      ∀ case ∈ cases.items, ∀ exc, parse case = .error exc → allowed exc = true)) ∧
    ∀ exc, fuzzParser view parse allowed cases = .error exc ↔
      FirstEscape view parse allowed cases.items exc ∨
        NothingEscapes view parse allowed cases.items ∧ cases.failure = some exc := by
  obtain ⟨items, failure⟩ := cases
  have hcases : NothingEscapes view parse allowed items ∨
      ∃ exc, FirstEscape view parse allowed items exc := exists_firstEscape items
  rcases hcases with hall | ⟨exc, hescape⟩
  · have hnone : ∀ exc, ¬FirstEscape view parse allowed items exc :=
      fun exc hescape => hescape.not_nothingEscapes hall
    rw [fuzzParser_eq hall]
    cases failure with
    | none =>
      refine ⟨fun result => ?_, fun result hresult => ?_, fun exc => ?_⟩
      · simp only [Except.ok.injEq, hall, true_and, eq_comm]
      · cases hresult
        simp only [FuzzResult.ok, List.isEmpty_iff, List.filterMap_eq_nil_iff, crashOf_eq_none]
      · simp only [reduceCtorEq, hnone, and_false, or_self]
    | some exc =>
      refine ⟨fun result => ?_, fun result hresult => ?_, fun exc' => ?_⟩
      · simp only [reduceCtorEq, false_and, and_false]
      · cases hresult
      · simp only [Except.error.injEq, hnone, hall, true_and, false_or, Option.some.injEq]
  · rw [fuzzParser_of_firstEscape hescape]
    have hnot := hescape.not_nothingEscapes
    refine ⟨fun result => ?_, fun result hresult => ?_, fun exc' => ⟨fun herror => ?_, ?_⟩⟩
    · simp only [reduceCtorEq, hnot, false_and]
    · cases hresult
    · cases herror
      exact .inl hescape
    · rintro (hescape' | ⟨hall, -⟩)
      · rw [← fuzzParser_of_firstEscape (y := ⟨items, failure⟩) hescape]
        exact fuzzParser_of_firstEscape hescape'
      · exact absurd hall hnot

end Meaning

end Fuzz

end Rtpkit

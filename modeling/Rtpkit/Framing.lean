import Mathlib.Data.List.Basic

/-- What stands at the head of the data left: a complete unit, which a strict reader may object
to; a unit that is cut off; or something that no reader can get past. -/
inductive Head (σ α ε : Type)
  | unit (size : Nat) (after : σ) (objection : Option ε) (item : Option α)
  | cut (failure : ε)
  | fatal (failure : ε)

/-- The items a generator has yielded, and the exception that ended it. -/
structure Yielded (α ε : Type) where
  items : List α
  failure : Option ε
  deriving DecidableEq, Repr

namespace Yielded

variable {α ε : Type}

def returned : Yielded α ε := ⟨[], none⟩

def raised (e : ε) : Yielded α ε := ⟨[], some e⟩

def prepend (items : List α) (y : Yielded α ε) : Yielded α ε := ⟨items ++ y.items, y.failure⟩

/-- `list(...)` of a generator. -/
def toExcept (y : Yielded α ε) : Except ε (List α) :=
  match y.failure with
  | none => .ok y.items
  | some e => .error e

@[simp] theorem prepend_nil (y : Yielded α ε) : y.prepend [] = y := rfl

theorem prepend_prepend (xs ys : List α) (y : Yielded α ε) :
    (y.prepend ys).prepend xs = y.prepend (xs ++ ys) := by
  simp [prepend]

@[simp] theorem items_prepend (xs : List α) (y : Yielded α ε) :
    (y.prepend xs).items = xs ++ y.items := rfl

@[simp] theorem failure_prepend (xs : List α) (y : Yielded α ε) :
    (y.prepend xs).failure = y.failure := rfl

theorem toExcept_prepend (xs : List α) (y : Yielded α ε) :
    (y.prepend xs).toExcept = (xs ++ ·) <$> y.toExcept := by
  obtain ⟨items, failure⟩ := y
  cases failure with
  | none => rfl
  | some e => rfl

theorem toExcept_eq_ok {y : Yielded α ε} {items : List α} :
    y.toExcept = .ok items ↔ y = ⟨items, none⟩ := by
  obtain ⟨ys, failure⟩ := y
  cases failure with
  | none => simp [toExcept]
  | some e => simp [toExcept]

theorem toExcept_eq_error {y : Yielded α ε} {e : ε} :
    y.toExcept = .error e ↔ y.failure = some e := by
  obtain ⟨ys, failure⟩ := y
  cases failure with
  | none => simp [toExcept]
  | some e => simp [toExcept]

end Yielded

/-- A way to cut data into units from its head. A complete unit is known by its own bytes, and
less than its bytes is known to be cut off. -/
structure Framing (σ β α ε : Type) where
  head : σ → List β → Head σ α ε
  progress : ∀ {s rest size after objection item},
    head s rest = .unit size after objection item → 0 < size ∧ size ≤ rest.length
  stable : ∀ {s rest size after objection item},
    head s rest = .unit size after objection item →
      ∀ tail, head s (rest.take size ++ tail) = .unit size after objection item
  short : ∀ {s rest size after objection item},
    head s rest = .unit size after objection item →
      ∀ k, 0 < k → k < size → ∃ e, head s (rest.take k) = .cut e

/-- The head of the data is found from a header of fixed length, which says how long the unit is;
the bytes of the unit say the rest. -/
structure HeaderSpec {σ β η α ε : Type} (head : σ → List β → Head σ α ε) (minimum : Nat)
    (header : σ → List β → Except ε η) (size : η → Nat)
    (yields : η → List β → σ → Option ε → Option α → Prop) : Prop where
  pos : 0 < minimum
  fromFront : ∀ {s x}, minimum ≤ x.length → ∀ y, header s (x ++ y) = header s x
  unit : ∀ {s rest n after objection item}, head s rest = .unit n after objection item ↔
    ∃ hdr, minimum ≤ rest.length ∧ header s rest = .ok hdr ∧ size hdr = n ∧ minimum ≤ n ∧
      n ≤ rest.length ∧ yields hdr (rest.take n) after objection item
  tooShort : ∀ {s rest}, rest.length < minimum → ∃ e, head s rest = .cut e
  overrun : ∀ {s rest hdr}, minimum ≤ rest.length → header s rest = .ok hdr →
    rest.length < size hdr → ∃ e, head s rest = .cut e

namespace HeaderSpec

variable {σ β η α ε : Type} {head : σ → List β → Head σ α ε} {minimum : Nat}
  {header : σ → List β → Except ε η} {size : η → Nat}
  {yields : η → List β → σ → Option ε → Option α → Prop}
  {s : σ} {rest : List β} {n : Nat} {after : σ} {objection : Option ε} {item : Option α}

theorem header_take (spec : HeaderSpec head minimum header size yields)
    (hn : minimum ≤ (rest.take n).length) : header s (rest.take n) = header s rest := by
  rw [← spec.fromFront hn, List.take_append_drop]

theorem progress (spec : HeaderSpec head minimum header size yields)
    (h : head s rest = .unit n after objection item) : 0 < n ∧ n ≤ rest.length := by
  obtain ⟨hdr, -, -, -, hmin, hle, -⟩ := spec.unit.mp h
  exact ⟨Nat.lt_of_lt_of_le spec.pos hmin, hle⟩

theorem stable (spec : HeaderSpec head minimum header size yields)
    (h : head s rest = .unit n after objection item) (tail : List β) :
    head s (rest.take n ++ tail) = .unit n after objection item := by
  obtain ⟨hdr, -, hhdr, hsize, hmin, hle, hyields⟩ := spec.unit.mp h
  have hlen : (rest.take n).length = n := by
    rw [List.length_take]
    omega
  have hread : header s (rest.take n ++ tail) = .ok hdr := by
    rw [spec.fromFront (by omega), spec.header_take (by omega), hhdr]
  have hunit : (rest.take n ++ tail).take n = rest.take n := List.take_left' hlen
  refine spec.unit.mpr ⟨hdr, ?_, hread, hsize, hmin, ?_, ?_⟩
  · rw [List.length_append]
    omega
  · rw [List.length_append]
    omega
  · rwa [hunit]

theorem short (spec : HeaderSpec head minimum header size yields)
    (h : head s rest = .unit n after objection item) (k : Nat) (hk : k < n) :
    ∃ e, head s (rest.take k) = .cut e := by
  obtain ⟨hdr, -, hhdr, hsize, -, hle, -⟩ := spec.unit.mp h
  have hlen : (rest.take k).length = k := by
    rw [List.length_take]
    omega
  by_cases hshort : (rest.take k).length < minimum
  · exact spec.tooShort hshort
  · have hread : header s (rest.take k) = .ok hdr := by
      rw [spec.header_take (by omega), hhdr]
    exact spec.overrun (by omega) hread (by omega)

end HeaderSpec

/-- One unit of the data with what it yields. -/
structure Frame (β α : Type) where
  bytes : List β
  item : Option α

namespace Frame

variable {β α : Type}

/-- The items of the frames that end at or before index `k`, when the first starts at `off`. -/
def within (k : Nat) : Nat → List (Frame β α) → List α
  | _, [] => []
  | off, f :: frames =>
    let rest := within k (off + f.bytes.length) frames
    if off + f.bytes.length ≤ k then f.item.toList ++ rest else rest

theorem within_eq_nil {k off : Nat} (h : k < off) (frames : List (Frame β α)) :
    within k off frames = [] := by
  induction frames generalizing off with
  | nil => rfl
  | cons f frames ih =>
    rw [within, if_neg (by omega)]
    exact ih (by omega)

end Frame

namespace Framing

variable {σ β α ε : Type} (F : Framing σ β α ε)

theorem ne_nil {s : σ} {rest : List β} {size : Nat} {after : σ} {objection : Option ε}
    {item : Option α} (h : F.head s rest = .unit size after objection item) : rest ≠ [] := by
  obtain ⟨hpos, hle⟩ := F.progress h
  rintro rfl
  rw [List.length_nil] at hle
  omega

/-- Reads unit after unit. A strict reader raises where a lenient one ignores an objection or
stops at a unit that is cut off. -/
def run (strict : Bool) (s : σ) (rest : List β) : Yielded α ε :=
  if rest = [] then ⟨[], none⟩
  else
    match _h : F.head s rest with
    | .unit size after objection item =>
      match strict, objection with
      | true, some e => ⟨[], some e⟩
      | _, _ => (run strict after (rest.drop size)).prepend item.toList
    | .cut e => ⟨[], if strict then some e else none⟩
    | .fatal e => ⟨[], some e⟩
termination_by rest.length
decreasing_by
  have hsize := F.progress _h
  rw [List.length_drop]
  omega

/-- The data is a sequence of complete units without objections. -/
inductive Reads : σ → List β → List (Frame β α) → σ → Prop
  | done (s : σ) : Reads s [] [] s
  | next {s : σ} {rest : List β} {size : Nat} {after : σ} {item : Option α}
      {frames : List (Frame β α)} {last : σ}
      (head : F.head s rest = .unit size after none item)
      (tail : Reads after (rest.drop size) frames last) :
      Reads s rest (⟨rest.take size, item⟩ :: frames) last

section Run

variable {F}

@[simp] theorem run_nil (strict : Bool) (s : σ) : F.run strict s [] = ⟨[], none⟩ := by
  rw [run, if_pos rfl]

theorem run_next {strict : Bool} {s : σ} {rest : List β} {size : Nat} {after : σ}
    {objection : Option ε} {item : Option α}
    (h : F.head s rest = .unit size after objection item)
    (hquiet : strict = true → objection = none) :
    F.run strict s rest = (F.run strict after (rest.drop size)).prepend item.toList := by
  rw [run, if_neg (F.ne_nil h)]
  split
  next h' =>
    rw [h] at h'
    cases h'
    split
    next => simp at hquiet
    next => rfl
  next h' => rw [h] at h'; cases h'
  next h' => rw [h] at h'; cases h'

theorem run_objection {s : σ} {rest : List β} {size : Nat} {after : σ} {e : ε} {item : Option α}
    (h : F.head s rest = .unit size after (some e) item) :
    F.run true s rest = ⟨[], some e⟩ := by
  rw [run, if_neg (F.ne_nil h)]
  split
  next h' =>
    rw [h] at h'
    cases h'
    rfl
  next h' => rw [h] at h'; cases h'
  next h' => rw [h] at h'; cases h'

theorem run_cut {strict : Bool} {s : σ} {rest : List β} {e : ε} (hne : rest ≠ [])
    (h : F.head s rest = .cut e) :
    F.run strict s rest = ⟨[], if strict then some e else none⟩ := by
  rw [run, if_neg hne]
  split
  next h' => rw [h] at h'; cases h'
  next h' => rw [h] at h'; cases h'; rfl
  next h' => rw [h] at h'; cases h'

theorem run_fatal {strict : Bool} {s : σ} {rest : List β} {e : ε} (hne : rest ≠ [])
    (h : F.head s rest = .fatal e) : F.run strict s rest = ⟨[], some e⟩ := by
  rw [run, if_neg hne]
  split
  next h' => rw [h] at h'; cases h'
  next h' => rw [h] at h'; cases h'
  next h' => rw [h] at h'; cases h'; rfl

/-- A state matters only through what it finds at the head. -/
theorem run_eq_of_head_eq {strict : Bool} {s s' : σ} {rest : List β}
    (h : F.head s rest = F.head s' rest) : F.run strict s rest = F.run strict s' rest := by
  by_cases hne : rest = []
  · rw [hne, run_nil, run_nil]
  · cases hhead : F.head s' rest with
    | unit size after objection item =>
      rw [hhead] at h
      by_cases hquiet : strict = true → objection = none
      · rw [run_next h hquiet, run_next hhead hquiet]
      · obtain ⟨rfl, hsome⟩ := Classical.not_imp.mp hquiet
        obtain ⟨e, rfl⟩ := Option.ne_none_iff_exists'.mp hsome
        rw [run_objection h, run_objection hhead]
    | cut e =>
      rw [hhead] at h
      rw [run_cut hne h, run_cut hne hhead]
    | fatal e =>
      rw [hhead] at h
      rw [run_fatal hne h, run_fatal hne hhead]

theorem run_items_eq_nil {strict : Bool} {s : σ} {rest : List β}
    (h : ∀ size after objection item, F.head s rest ≠ .unit size after objection item) :
    (F.run strict s rest).items = [] := by
  by_cases hne : rest = []
  · rw [hne, run_nil]
  · cases hhead : F.head s rest with
    | unit size after objection item => exact absurd hhead (h size after objection item)
    | cut e => rw [run_cut hne hhead]
    | fatal e => rw [run_fatal hne hhead]

/-- A unit in front of other data is read first. -/
theorem run_append_unit {strict : Bool} {s : σ} {u rest : List β} {after : σ} {item : Option α}
    (h : F.head s (u ++ rest) = .unit u.length after none item) :
    F.run strict s (u ++ rest) = (F.run strict after rest).prepend item.toList := by
  rw [run_next h fun _ => rfl, List.drop_left]

/-- What units yield, each in the state that the ones before it leave. -/
def outputs {γ : Type} (step : σ → γ → σ) (item : σ → γ → Option α) : σ → List γ → List α
  | _, [] => []
  | s, x :: xs => (item s x).toList ++ outputs step item (step s x) xs

theorem outputs_append {γ : Type} (step : σ → γ → σ) (item : σ → γ → Option α) (s : σ)
    (xs ys : List γ) : outputs step item s (xs ++ ys) =
      outputs step item s xs ++ outputs step item (xs.foldl step s) ys := by
  induction xs generalizing s with
  | nil => rfl
  | cons x xs ih =>
    rw [List.cons_append, outputs, ih, outputs, List.append_assoc]
    rfl

theorem outputs_eq_filterMap {γ : Type} (step : σ → γ → σ) (item : γ → Option α) (s : σ)
    (xs : List γ) : outputs step (fun _ x => item x) s xs = xs.filterMap item := by
  induction xs generalizing s with
  | nil => rfl
  | cons x xs ih =>
    rw [outputs, ih]
    cases hitem : item x with
    | none => rw [List.filterMap_cons_none hitem]; rfl
    | some a => rw [List.filterMap_cons_some hitem]; rfl

/-- Units that a writer has put one after the other are read one after the other, when the state
before each of them lets it be read and is again good for the ones after it. -/
theorem run_append_outputs {γ : Type} (good : σ → List γ → Prop) (step : σ → γ → σ)
    {wire : γ → List β} {item : σ → γ → Option α}
    (hhead : ∀ s x xs, good s (x :: xs) → ∀ rest,
      F.head s (wire x ++ rest) = .unit (wire x).length (step s x) none (item s x))
    (hgood : ∀ s x xs, good s (x :: xs) → good (step s x) xs)
    (strict : Bool) {s : σ} {xs : List γ} (hs : good s xs) (rest : List β) :
    F.run strict s ((xs.map wire).flatten ++ rest) =
      (F.run strict (xs.foldl step s) rest).prepend (outputs step item s xs) := by
  induction xs generalizing s with
  | nil => rfl
  | cons x xs ih =>
    rw [List.map_cons, List.flatten_cons, List.append_assoc,
      run_append_unit (hhead s x xs hs _), ih (hgood s x xs hs), Yielded.prepend_prepend,
      List.foldl_cons, outputs]

theorem run_append_all_units {γ : Type} (good : σ → List γ → Prop) (step : σ → γ → σ)
    {wire : γ → List β} {item : γ → Option α}
    (hhead : ∀ s x xs, good s (x :: xs) → ∀ rest,
      F.head s (wire x ++ rest) = .unit (wire x).length (step s x) none (item x))
    (hgood : ∀ s x xs, good s (x :: xs) → good (step s x) xs)
    (strict : Bool) {s : σ} {xs : List γ} (hs : good s xs) (rest : List β) :
    F.run strict s ((xs.map wire).flatten ++ rest) =
      (F.run strict (xs.foldl step s) rest).prepend (xs.filterMap item) := by
  rw [← outputs_eq_filterMap step item s xs]
  exact run_append_outputs good step hhead hgood strict hs rest

/-- Units that are read in every state that the ones before them may leave. -/
theorem run_append_units {γ : Type} (good : σ → Prop) (step : σ → γ → σ) {wire : γ → List β}
    {item : γ → Option α} {xs : List γ}
    (hhead : ∀ s, good s → ∀ x ∈ xs, ∀ rest,
      F.head s (wire x ++ rest) = .unit (wire x).length (step s x) none (item x))
    (hgood : ∀ s, good s → ∀ x ∈ xs, good (step s x))
    (strict : Bool) {s : σ} (hs : good s) (rest : List β) :
    F.run strict s ((xs.map wire).flatten ++ rest) =
      (F.run strict (xs.foldl step s) rest).prepend (xs.filterMap item) := by
  apply run_append_all_units (fun s ys => good s ∧ ∀ y ∈ ys, y ∈ xs) step
  · exact fun s y ys h => hhead s h.1 y (h.2 y (by simp))
  · exact fun s y ys h => ⟨hgood s h.1 y (h.2 y (by simp)), fun z hz => h.2 z (by simp [hz])⟩
  · exact ⟨hs, fun y hy => hy⟩

/-- A reader with an offset, whose turns do what the head of the data left calls for, reads the
units of the bytes from its offset on, in whatever form `interp` it hands out what it yields. -/
theorem run_drop_eq {ρ : Type} (interp : Yielded α ε → ρ) (more : List α → ρ → ρ)
    (hmore : ∀ items y, interp (y.prepend items) = more items (interp y))
    {strict : Bool} {data : List β} {f : σ → Nat → ρ}
    (hpast : ∀ s off, data.length ≤ off → f s off = interp ⟨[], none⟩)
    (hturn : ∀ s off, off < data.length → f s off =
      match F.head s (data.drop off) with
      | .unit size after objection item =>
        match strict, objection with
        | true, some e => interp ⟨[], some e⟩
        | _, _ => more item.toList (f after (off + size))
      | .cut e => interp ⟨[], if strict then some e else none⟩
      | .fatal e => interp ⟨[], some e⟩)
    (s : σ) (off : Nat) : f s off = interp (F.run strict s (data.drop off)) := by
  induction hn : data.length - off using Nat.strongRecOn generalizing s off with
  | _ n ih =>
    by_cases hlt : off < data.length
    · have hne : data.drop off ≠ [] := by
        intro hnil
        have hzero := congrArg List.length hnil
        rw [List.length_drop, List.length_nil] at hzero
        omega
      rw [hturn s off hlt]
      cases h : F.head s (data.drop off) with
      | unit size after objection item =>
        have hpos := (F.progress h).1
        have htail := ih _ (by omega) after (off + size) rfl
        rw [← List.drop_drop] at htail
        dsimp only
        split
        next => rw [run_objection h]
        next hquiet =>
          rw [run_next h, hmore, htail]
          intro hstrict
          cases objection with
          | none => rfl
          | some e => exact absurd rfl (hquiet e hstrict)
      | cut e => rw [run_cut hne h]
      | fatal e => rw [run_fatal hne h]
    · rw [hpast s off (by omega), List.drop_eq_nil_of_le (by omega), run_nil]

/-- One turn of a strict reader that does not fail at once. -/
theorem run_strict_cases (s : σ) (rest : List β) :
    rest = [] ∨ (∃ e, F.run true s rest = ⟨[], some e⟩) ∨
    ∃ size after item, F.head s rest = .unit size after none item ∧
      ∀ strict, F.run strict s rest = (F.run strict after (rest.drop size)).prepend item.toList := by
  by_cases hne : rest = []
  · exact .inl hne
  · right
    cases h : F.head s rest with
    | unit size after objection item =>
      cases objection with
      | none => exact .inr ⟨size, after, item, rfl, fun _ => run_next h fun _ => rfl⟩
      | some e => exact .inl ⟨e, run_objection h⟩
    | cut e => exact .inl ⟨e, run_cut hne h⟩
    | fatal e => exact .inl ⟨e, run_fatal hne h⟩

/-- A strict reader that gets to the end has read the data as a sequence of units. -/
theorem exists_reads {s : σ} {rest : List β} (h : (F.run true s rest).failure = none) :
    ∃ frames last, F.Reads s rest frames last := by
  induction hn : rest.length using Nat.strongRecOn generalizing s rest with
  | _ n ih =>
    rcases run_strict_cases s rest with rfl | ⟨e, he⟩ | ⟨size, after, item, hhead, hrun⟩
    · exact ⟨[], s, .done s⟩
    · rw [he] at h
      cases h
    · have hsize := F.progress hhead
      rw [hrun, Yielded.failure_prepend] at h
      obtain ⟨frames, last, hreads⟩ := ih _ (by rw [List.length_drop]; omega) h rfl
      exact ⟨_, last, .next hhead hreads⟩

/-- Data that follows a sequence of units is read from the state after them. -/
theorem Reads.run_append {s last : σ} {a : List β} {frames : List (Frame β α)}
    (h : F.Reads s a frames last) (strict : Bool) (b : List β) :
    F.run strict s (a ++ b) = (F.run strict last b).prepend (frames.filterMap Frame.item) := by
  induction h with
  | done s => rfl
  | @next s rest size after item frames last hhead htail ih =>
    have hsize := F.progress hhead
    have hsplit : rest ++ b = rest.take size ++ (rest.drop size ++ b) := by
      rw [← List.append_assoc, List.take_append_drop]
    have hlen : (rest.take size).length = size := by
      rw [List.length_take]
      omega
    have hdrop : (rest ++ b).drop size = rest.drop size ++ b :=
      List.drop_append_of_le_length hsize.2
    have hhead' : F.head s (rest ++ b) = .unit size after none item := by
      rw [hsplit]
      exact F.stable hhead _
    rw [run_next hhead' fun _ => rfl, hdrop, ih, Yielded.prepend_prepend]
    cases item with
    | none => rfl
    | some a => rfl

theorem Reads.run_eq {s last : σ} {a : List β} {frames : List (Frame β α)}
    (h : F.Reads s a frames last) (strict : Bool) :
    F.run strict s a = ⟨frames.filterMap Frame.item, none⟩ := by
  have happ := h.run_append strict []
  rw [List.append_nil, run_nil] at happ
  rw [happ, Yielded.prepend, List.append_nil]

theorem Reads.flatten_bytes {s last : σ} {d : List β} {frames : List (Frame β α)}
    (h : F.Reads s d frames last) : (frames.map Frame.bytes).flatten = d := by
  induction h with
  | done s => rfl
  | next hhead htail ih =>
    rw [List.map_cons, List.flatten_cons, ih, List.take_append_drop]

/-- Where strict mode gets to the end, lenient mode reads the same. -/
theorem run_lenient_eq {s : σ} {rest : List β} (h : (F.run true s rest).failure = none) :
    F.run false s rest = F.run true s rest := by
  obtain ⟨frames, last, hreads⟩ := exists_reads h
  rw [hreads.run_eq, hreads.run_eq]

/-- What strict mode yields before it raises, lenient mode yields first. -/
theorem run_strict_prefix (s : σ) (rest : List β) :
    (F.run true s rest).items <+: (F.run false s rest).items := by
  induction hn : rest.length using Nat.strongRecOn generalizing s rest with
  | _ n ih =>
    rcases run_strict_cases s rest with rfl | ⟨e, he⟩ | ⟨size, after, item, hhead, hrun⟩
    · simp
    · rw [he]
      exact List.nil_prefix
    · have hsize := F.progress hhead
      rw [hrun, hrun, Yielded.items_prepend, Yielded.items_prepend, List.prefix_append_right_inj]
      exact ih _ (by rw [List.length_drop]; omega) _ _ rfl

/-- Without objections to whole units the two modes yield the same. -/
theorem run_items_eq
    (hquiet : ∀ s rest size after objection item,
      F.head s rest = .unit size after objection item → objection = none)
    (s : σ) (rest : List β) : (F.run true s rest).items = (F.run false s rest).items := by
  induction hn : rest.length using Nat.strongRecOn generalizing s rest with
  | _ n ih =>
    by_cases hne : rest = []
    · rw [hne, run_nil, run_nil]
    · cases h : F.head s rest with
      | unit size after objection item =>
        have hsize := F.progress h
        have hnone := hquiet _ _ _ _ _ _ h
        rw [run_next h fun _ => hnone, run_next h fun _ => hnone, Yielded.items_prepend,
          Yielded.items_prepend, ih _ (by rw [List.length_drop]; omega) _ _ rfl]
      | cut e => rw [run_cut hne h, run_cut hne h]
      | fatal e => rw [run_fatal hne h, run_fatal hne h]

/-- A file that is cut off is read up to the last whole unit. -/
theorem Reads.run_take {s last : σ} {d : List β} {frames : List (Frame β α)}
    (h : F.Reads s d frames last) (off k : Nat) (hoff : off ≤ k) :
    F.run false s (d.take (k - off)) = ⟨Frame.within k off frames, none⟩ := by
  induction h generalizing off with
  | done s => rw [List.take_nil, run_nil, Frame.within]
  | @next s rest size after item frames last hhead htail ih =>
    have hsize := F.progress hhead
    have hlen : (rest.take size).length = size := by
      rw [List.length_take]
      omega
    rw [Frame.within]
    dsimp only
    rw [hlen]
    by_cases hfits : off + size ≤ k
    · have htake : rest.take (k - off) = rest.take size ++ (rest.drop size).take (k - off - size) := by
        rw [← List.take_add]
        congr 1
        omega
      have hdrop : (rest.take (k - off)).drop size = (rest.drop size).take (k - (off + size)) := by
        rw [List.drop_take]
        congr 1
        omega
      have hhead' : F.head s (rest.take (k - off)) = .unit size after none item := by
        rw [htake]
        exact F.stable hhead _
      rw [if_pos hfits, run_next hhead' fun _ => rfl, hdrop, ih _ hfits]
      rfl
    · rw [if_neg hfits, Frame.within_eq_nil (by omega)]
      by_cases hk : k = off
      · rw [hk, Nat.sub_self, List.take_zero, run_nil]
      · obtain ⟨e, hcut⟩ := F.short hhead (k - off) (by omega) (by omega)
        have hne : rest.take (k - off) ≠ [] := by
          intro hnil
          have hzero := congrArg List.length hnil
          rw [List.length_take, List.length_nil] at hzero
          omega
        rw [run_cut hne hcut]
        rfl

end Run

end Framing

import Rtpkit.Framing
import Rtpkit.Outcome

namespace Framing

variable {σ β α ε : Type} {F : Framing σ β α ε}

section Split

/-- A unit by itself is found in front of any data. -/
theorem head_append {s after : σ} {u : List β} {objection : Option ε} {item : Option α}
    (h : F.head s u = .unit u.length after objection item) (rest : List β) :
    F.head s (u ++ rest) = .unit u.length after objection item := by
  have hstable := F.stable h rest
  rwa [List.take_length] at hstable

theorem Reads.cons {s after last : σ} {u d : List β} {item : Option α} {frames : List (Frame β α)}
    (hhead : F.head s u = .unit u.length after none item) (h : F.Reads after d frames last) :
    F.Reads s (u ++ d) (⟨u, item⟩ :: frames) last := by
  have hrest : F.Reads after ((u ++ d).drop u.length) frames last := by
    rwa [List.drop_left]
  have hreads := Reads.next (head_append hhead d) hrest
  rwa [List.take_left] at hreads

/-- Each frame is a unit by itself in the state that the ones before it leave. -/
theorem Reads.split {s last : σ} {d : List β} {before after : List (Frame β α)}
    (h : F.Reads s d (before ++ after) last) :
    ∃ mid, F.Reads s (before.map Frame.bytes).flatten before mid ∧
      F.Reads mid (after.map Frame.bytes).flatten after last := by
  induction before generalizing s d with
  | nil =>
    have hbytes := h.flatten_bytes
    rw [List.nil_append] at h hbytes
    exact ⟨s, .done s, by rwa [hbytes]⟩
  | cons f before ih =>
    cases h with
    | @next _ rest size next item _ _ hhead htail =>
      obtain ⟨mid, hbefore, hafter⟩ := ih htail
      have hsize := F.progress hhead
      have hlen : (d.take size).length = size := by
        rw [List.length_take]
        omega
      have hself := F.stable hhead []
      rw [List.append_nil] at hself
      refine ⟨mid, ?_, hafter⟩
      rw [List.map_cons, List.flatten_cons]
      exact .cons (by rw [hlen]; exact hself) hbefore

theorem Reads.head_frame {s last : σ} {d : List β} {f : Frame β α} {frames : List (Frame β α)}
    (h : F.Reads s d (f :: frames) last) :
    ∃ after, F.head s f.bytes = .unit f.bytes.length after none f.item := by
  cases h with
  | @next _ rest size after item _ _ hhead htail =>
    have hsize := F.progress hhead
    have hlen : (d.take size).length = size := by
      rw [List.length_take]
      omega
    have hself := F.stable hhead []
    rw [List.append_nil] at hself
    exact ⟨after, by rw [hlen]; exact hself⟩

/-- Of a unit that is cut off a reader yields nothing, and a strict one objects. -/
theorem run_short {s next : σ} {u : List β} {objection : Option ε} {item : Option α}
    (hhead : F.head s u = .unit u.length next objection item) {r : Nat} (hpos : 0 < r)
    (hlt : r < u.length) :
    ∃ e, F.head s (u.take r) = .cut e ∧
      ∀ strict, F.run strict s (u.take r) = ⟨[], if strict then some e else none⟩ := by
  obtain ⟨e, hcut⟩ := F.short hhead r hpos hlt
  have hne : u.take r ≠ [] := by
    apply List.ne_nil_of_length_pos
    rw [List.length_take]
    omega
  exact ⟨e, hcut, fun strict => run_cut hne hcut⟩

/-- Data that is cut off inside a frame is read up to that frame, which a strict reader then
objects to. -/
theorem Reads.run_torn {s last : σ} {d : List β} {before after : List (Frame β α)} {f : Frame β α}
    (h : F.Reads s d (before ++ f :: after) last) :
    F.run true s (before.map Frame.bytes).flatten = ⟨before.filterMap Frame.item, none⟩ ∧
    ∃ s' next, F.head s' f.bytes = .unit f.bytes.length next none f.item ∧
      ∀ r, 0 < r → r < f.bytes.length → ∃ e, F.head s' (f.bytes.take r) = .cut e ∧
        F.run true s ((before.map Frame.bytes).flatten ++ f.bytes.take r) =
          ⟨before.filterMap Frame.item, some e⟩ := by
  obtain ⟨mid, hbefore, hafter⟩ := h.split
  obtain ⟨next, hhead⟩ := hafter.head_frame
  refine ⟨hbefore.run_eq true, mid, next, hhead, fun r hpos hlt => ?_⟩
  obtain ⟨e, hcut, hshort⟩ := run_short hhead hpos hlt
  refine ⟨e, hcut, ?_⟩
  rw [hbefore.run_append true, hshort true, Yielded.prepend, List.append_nil]
  rfl

end Split

section Torn

end Torn

section Whole

/-- What whole units in front of other data yield, objections being ignored. -/
inductive Passes (F : Framing σ β α ε) : σ → List β → List α → σ → Prop
  | done (s : σ) : Passes F s [] [] s
  | next {s after last : σ} {u d : List β} {objection : Option ε} {item : Option α}
      {items : List α}
      (head : F.head s u = .unit u.length after objection item)
      (rest : Passes F after d items last) : Passes F s (u ++ d) (item.toList ++ items) last

/-- A lenient reader gets past whole units, whatever a strict one says of them. -/
theorem Passes.run_append {s last : σ} {d : List β} {items : List α}
    (h : F.Passes s d items last) (rest : List β) :
    F.run false s (d ++ rest) = (F.run false last rest).prepend items := by
  induction h with
  | done s => rfl
  | @next s after last u d objection item items head hpasses ih =>
    rw [List.append_assoc, run_next (head_append head _) (by simp), List.drop_left, ih,
      Yielded.prepend_prepend]

theorem Passes.concat {s last after : σ} {d u : List β} {items : List α} {objection : Option ε}
    {item : Option α} (h : F.Passes s d items last)
    (head : F.head last u = .unit u.length after objection item) :
    F.Passes s (d ++ u) (items ++ item.toList) after := by
  induction h with
  | done s =>
    have hone := Passes.next head (.done after)
    rwa [List.append_nil, List.append_nil] at hone
  | next first hpasses ih =>
    rw [List.append_assoc, List.append_assoc]
    exact .next first (ih head)

end Whole

/-- Data is whole at a state when its head is all of it. -/
def Whole (F : Framing σ β α ε) (s : σ) (u : List β) : Prop :=
  ∃ after objection item, F.head s u = .unit u.length after objection item

/-- Without a state, reading whole units one after the other is reading each by itself. -/
theorem toExcept_run_flatten {F : Framing Unit β α ε} {strict : Bool} {units : List (List β)}
    {parse : List β → Except ε (List α)} (hwhole : ∀ u ∈ units, F.Whole () u)
    (hparse : ∀ u ∈ units, parse u = (F.run strict () u).toExcept) :
    (F.run strict () units.flatten).toExcept = List.flatten <$> units.mapM parse := by
  induction units with
  | nil => rw [List.flatten_nil, run_nil]; rfl
  | cons u units ih =>
    obtain ⟨⟨_, objection, item, hhead⟩, hunits⟩ := List.forall_mem_cons.mp hwhole
    obtain ⟨hu, hrest⟩ := List.forall_mem_cons.mp hparse
    have hdrop : u.drop u.length = [] := List.drop_length
    rw [List.flatten_cons, List.mapM_cons, hu]
    by_cases hquiet : strict = true → objection = none
    · rw [run_next (head_append hhead _) hquiet, run_next hhead hquiet, List.drop_left, hdrop,
        run_nil, Yielded.toExcept_prepend, ih hunits hrest]
      cases units.mapM parse with
      | error e => rfl
      | ok lists => simp [Yielded.toExcept, Yielded.prepend, bind, Except.bind, pure, Except.pure,
          Functor.map, Except.map]
    · obtain ⟨rfl, hsome⟩ := Classical.not_imp.mp hquiet
      obtain ⟨e, rfl⟩ := Option.ne_none_iff_exists'.mp hsome
      rw [run_objection (head_append hhead _), run_objection hhead]
      rfl

end Framing

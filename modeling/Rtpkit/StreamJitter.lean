import Rtpkit.StreamRun
import Mathlib.Algebra.Order.Field.Basic
import Mathlib.Algebra.Order.Field.Rat
import Mathlib.Tactic.Linarith
import Mathlib.Tactic.Ring

namespace Rtpkit

/-- The transit time of a packet in ticks, up to the offset of the sender's clock. -/
def Arrival.transit (a : Arrival) : ℚ := a.arrivalTime * a.clockRate - a.packet.timestamp

/-- How often the shifted timestamp has passed the end of its 32 bits. -/
def Arrival.wraps (c : Int) (a : Arrival) : Int := (a.packet.timestamp + c) / 4294967296

def Arrival.shiftTimestamp (c : Int) (a : Arrival) : Arrival :=
  { a with packet := { a.packet with timestamp := (a.packet.timestamp + c) % 4294967296 } }

/-- The same stream from a sender whose initial timestamp differs by `c`. -/
def shiftTimestamps (c : Int) (run : List Arrival) : List Arrival :=
  run.map (Arrival.shiftTimestamp c)

def SameJitter (c ssrc : Int) (run : List Arrival) : Prop :=
  Option.map RtpStreamStats.jitter <$> (trackerAfter (shiftTimestamps c run)).stats ssrc =
    Option.map RtpStreamStats.jitter <$> (trackerAfter run).stats ssrc

/-- No wrap falls between the two packets, or their transit times differ by exactly half of
what the wraps between them add. -/
def WrapHidden (c : Int) (a b : Arrival) : Prop :=
  b.wraps c = a.wraps c ∨ b.transit - a.transit = 2147483648 * (a.wraps c - b.wraps c)

instance (c : Int) (a b : Arrival) : Decidable (WrapHidden c a b) :=
  inferInstanceAs (Decidable (_ ∨ _))

def streamJitter (run : List Arrival) : ℚ := (streamAfter run).elim 0 StreamState.jitter

theorem stats_jitter (run : List Arrival) (ssrc : Int) :
    Option.map RtpStreamStats.jitter <$> (trackerAfter run).stats ssrc =
      .ok ((streamAfter (arrivalsOf ssrc run)).map StreamState.jitter) := by
  unfold RtpStreamTracker.stats
  rw [get?_trackerAfter]
  cases hstate : streamAfter (arrivalsOf ssrc run) with
  | none => rfl
  | some s =>
    obtain ⟨st, hst, -, hjitter, -⟩ :=
      (tracks_streamAfter hstate).snapshot (ne_nil_of_streamAfter hstate) ssrc
    simp [hst, hjitter]

theorem sameJitter_iff {c ssrc : Int} {run : List Arrival}
    (hssrc : ∀ a ∈ run, a.packet.ssrc = ssrc) :
    SameJitter c ssrc run ↔ streamJitter (shiftTimestamps c run) = streamJitter run := by
  have hown : arrivalsOf ssrc (shiftTimestamps c run) = shiftTimestamps c run := by
    refine arrivalsOf_eq_self fun a ha => ?_
    obtain ⟨b, hb, rfl⟩ := List.mem_map.mp ha
    exact hssrc b hb
  unfold SameJitter streamJitter
  rw [stats_jitter, stats_jitter, hown, arrivalsOf_eq_self hssrc]
  induction run using List.reverseRecOn with
  | nil => simp [shiftTimestamps, streamAfter]
  | append_singleton run a ih =>
    rw [shiftTimestamps, List.map_append, List.map_singleton, streamAfter_concat,
      streamAfter_concat]
    simp

theorem prevTransit_concat (run : List Arrival) (a : Arrival) :
    (streamAfter (run ++ [a])).bind StreamState.prevTransit = some a.transit := by
  rw [streamAfter_concat, Option.bind_some, StreamState.step, StreamState.observe_eq]
  rfl

@[simp] theorem streamJitter_singleton (a : Arrival) : streamJitter [a] = 0 := by
  simp [streamJitter, streamAfter, StreamState.step, StreamState.observe_eq]

theorem streamJitter_concat (run : List Arrival) (a b : Arrival) :
    streamJitter (run ++ [a] ++ [b]) = streamJitter (run ++ [a]) +
      (|b.transit - a.transit| - streamJitter (run ++ [a])) / 16 := by
  have hprev := prevTransit_concat run a
  obtain ⟨s, hs⟩ : ∃ s, streamAfter (run ++ [a]) = some s := ⟨_, streamAfter_concat run a⟩
  rw [hs, Option.bind_some] at hprev
  unfold streamJitter
  rw [streamAfter_concat, hs, Option.getD_some, StreamState.step, StreamState.observe_eq, hprev]
  rfl

theorem transit_shiftTimestamp (c : Int) (a : Arrival) :
    (a.shiftTimestamp c).transit = a.transit - c + 4294967296 * a.wraps c := by
  have hdiv := Int.emod_add_mul_ediv (a.packet.timestamp + c) 4294967296
  have hcast : (((a.packet.timestamp + c) % 4294967296 : Int) : ℚ) =
      a.packet.timestamp + c - 4294967296 * a.wraps c := by
    unfold Arrival.wraps
    exact_mod_cast (show (a.packet.timestamp + c) % 4294967296 =
      a.packet.timestamp + c - 4294967296 * ((a.packet.timestamp + c) / 4294967296) by omega)
  unfold Arrival.transit Arrival.shiftTimestamp
  rw [hcast]
  ring

/-- The filter keeps every difference of its input. -/
theorem filter_inj {j x y : ℚ} : j + (x - j) / 16 = j + (y - j) / 16 ↔ x = y := by
  constructor
  · intro h
    linarith
  · rintro rfl
    rfl

theorem abs_transit_shift_iff (c : Int) (a b : Arrival) :
    |(b.shiftTimestamp c).transit - (a.shiftTimestamp c).transit| = |b.transit - a.transit| ↔
      WrapHidden c a b := by
  rw [transit_shiftTimestamp, transit_shiftTimestamp, abs_eq_abs]
  unfold WrapHidden
  constructor
  · rintro (h | h)
    · left
      have hwraps : (b.wraps c : ℚ) = a.wraps c := by linarith
      exact_mod_cast hwraps
    · right
      linarith
  · rintro (h | h)
    · left
      rw [h]
      ring
    · right
      linarith

theorem shiftTimestamps_concat (c : Int) (run : List Arrival) (a : Arrival) :
    shiftTimestamps c (run ++ [a]) = shiftTimestamps c run ++ [a.shiftTimestamp c] := by
  simp [shiftTimestamps]

/-- With the estimates equal so far, the next packet keeps them equal exactly when the wrap
is hidden. -/
theorem streamJitter_shift_iff {c : Int} {run : List Arrival} {a b : Arrival}
    (h : streamJitter (shiftTimestamps c (run ++ [a])) = streamJitter (run ++ [a])) :
    streamJitter (shiftTimestamps c (run ++ [a] ++ [b])) = streamJitter (run ++ [a] ++ [b]) ↔
      WrapHidden c a b := by
  rw [streamJitter_concat, shiftTimestamps_concat, shiftTimestamps_concat, streamJitter_concat,
    ← shiftTimestamps_concat, h, filter_inj, abs_transit_shift_iff]

theorem streamJitter_prefixes_iff {c : Int} {run : List Arrival} :
    (∀ before, before <+: run →
        streamJitter (shiftTimestamps c before) = streamJitter before) ↔
      ∀ before a b, before ++ [a] ++ [b] <+: run → WrapHidden c a b := by
  constructor
  · intro hsame before a b hbefore
    exact (streamJitter_shift_iff (hsame _ ((List.prefix_append _ _).trans hbefore))).mp
      (hsame _ hbefore)
  · intro hhidden before hbefore
    induction before using List.reverseRecOn with
    | nil => rfl
    | append_singleton before b ih =>
      rcases List.eq_nil_or_concat before with rfl | ⟨earlier, a, rfl⟩
      · simp [shiftTimestamps]
      · rw [List.concat_eq_append] at ih hbefore ⊢
        exact (streamJitter_shift_iff (ih ((List.prefix_append _ _).trans hbefore))).mpr
          (hhidden earlier a b hbefore)

/-- The initial timestamp stays invisible in the estimate exactly as long as every wrap of
the shifted timestamps is hidden. -/
theorem sameJitter_iff_wrapHidden {c ssrc : Int} {run : List Arrival}
    (hssrc : ∀ a ∈ run, a.packet.ssrc = ssrc) :
    (∀ before, before <+: run → SameJitter c ssrc before) ↔
      ∀ before a b, before ++ [a] ++ [b] <+: run → WrapHidden c a b := by
  rw [← streamJitter_prefixes_iff]
  refine forall₂_congr fun before hbefore => ?_
  exact sameJitter_iff fun a ha => hssrc a (hbefore.subset ha)

/-- Two packets half a timestamp cycle apart, whose order of wrapping the shift exchanges. -/
theorem sameJitter_iff_wrapHidden_half :
    SameJitter 2147483648 1 [{ packet := plainPacket 1 0 0, arrivalTime := 0 },
      { packet := plainPacket 1 1 2147483648, arrivalTime := 0 }] := by
  refine (sameJitter_iff_wrapHidden (by decide)).mpr ?_ _ (List.prefix_refl _)
  intro before a b h
  have ha := ArrivalOrder.getElem?_of_concat ((List.prefix_append _ _).trans h)
  have hb := ArrivalOrder.getElem?_of_concat h
  have hlt := (List.getElem?_eq_some_iff.mp hb).1
  have hzero : before = [] := by
    rw [← List.length_eq_zero_iff]
    simp only [List.length_append, List.length_cons, List.length_nil] at hlt
    omega
  subst hzero
  cases ha
  cases hb
  decide +kernel

/-- A punctual second packet whose shifted timestamp wraps to 0 looks one cycle late. -/
theorem sameJitter_fails_at_wrap :
    ¬∀ (c ssrc : Int) (run : List Arrival), (∀ a ∈ run, a.packet.ssrc = ssrc) →
      (∀ a ∈ run, 0 < a.clockRate) →
      (∀ a ∈ run, 0 ≤ a.packet.timestamp ∧ a.packet.timestamp < 4294967296) →
      ∀ before, before <+: run → SameJitter c ssrc before := by
  intro hall
  have hsame := hall 4294967136 1 [{ packet := plainPacket 1 0 0, arrivalTime := 0 },
    { packet := plainPacket 1 1 160, arrivalTime := 1 / 50 }] (by decide) (by decide)
    (by decide) _ (List.prefix_refl _)
  exact absurd hsame (by unfold SameJitter; decide +kernel)

end Rtpkit

import Rtpkit.Smoothing
import Rtpkit.StreamJitter
import Mathlib.Tactic.NormNum

namespace Rtpkit

/-- The transit time of observation `i` of a stream. -/
def transitAt (own : List Arrival) (i : Nat) : ℚ := (own[i]?.map Arrival.transit).getD 0

/-- By how much observation `i` is later than the one before it would have it. -/
def transitDelta (own : List Arrival) (i : Nat) : ℚ := transitAt own i - transitAt own (i - 1)

/-- The jitter that the statistics of a stream give. -/
def trackedJitter (ssrc : Int) (run : List Arrival) : Except Error (Option ℚ) :=
  Option.map RtpStreamStats.jitter <$> (trackerAfter run).stats ssrc

/-- The same arrivals on a clock that shows another time. -/
def delayed (c : ℚ) (run : List Arrival) : List Arrival :=
  run.map fun a => { a with arrivalTime := a.arrivalTime + c }

/-- All that the estimate takes from an observation. -/
def Arrival.timing (a : Arrival) : ℚ × Int × Int := (a.arrivalTime, a.clockRate, a.packet.timestamp)

theorem transitAt_eq {own : List Arrival} {i : Nat} (h : i < own.length) :
    transitAt own i = own[i].transit := by
  rw [transitAt, List.getElem?_eq_getElem h]
  rfl

theorem streamJitter_take {own : List Arrival} {n : Nat} (h : n < own.length) :
    streamJitter (own.take (n + 1)) = smoothed 16 (fun i => |transitDelta own i|) n := by
  induction n with
  | zero =>
    rw [List.take_succ_eq_append_getElem h, List.take_zero, List.nil_append,
      streamJitter_singleton]
    rfl
  | succ n ih =>
    have hn : n < own.length := by omega
    have hbefore := ih hn
    rw [List.take_succ_eq_append_getElem hn] at hbefore
    rw [List.take_succ_eq_append_getElem h, List.take_succ_eq_append_getElem hn,
      streamJitter_concat, hbefore, smoothed, transitDelta, transitAt_eq h, Nat.add_sub_cancel,
      transitAt_eq hn]

/-- The estimate after `n + 1` observations smooths the `n` changes of the transit time. -/
theorem streamJitter_eq_smoothed {own : List Arrival} {n : Nat} (h : own.length = n + 1) :
    streamJitter own = smoothed 16 (fun i => |transitDelta own i|) n := by
  rw [← streamJitter_take (by omega), ← h, List.take_length]

theorem trackedJitter_eq {run : List Arrival} {ssrc : Int} {n : Nat}
    (h : (arrivalsOf ssrc run).length = n + 1) :
    trackedJitter ssrc run = .ok (some (smoothed 16
      (fun i => |transitDelta (arrivalsOf ssrc run) i|) n)) := by
  rw [← streamJitter_eq_smoothed h, trackedJitter, stats_jitter, streamJitter]
  cases hstate : streamAfter (arrivalsOf ssrc run) with
  | none =>
    rw [streamAfter_eq_none_iff] at hstate
    rw [hstate] at h
    cases h
  | some s => rfl

/-- Streams with the same changes of the transit time have the same jitter. -/
theorem trackedJitter_congr {run run' : List Arrival} {ssrc ssrc' : Int} {n : Nat}
    (h : (arrivalsOf ssrc run).length = n + 1) (h' : (arrivalsOf ssrc' run').length = n + 1)
    (hsame : ∀ i ∈ Finset.Icc 1 n,
      transitDelta (arrivalsOf ssrc' run') i = transitDelta (arrivalsOf ssrc run) i) :
    trackedJitter ssrc' run' = trackedJitter ssrc run := by
  rw [trackedJitter_eq h, trackedJitter_eq h',
    Smoothing.smoothed_congr fun i hi => congrArg abs (hsame i hi)]

/-- The changes vanish exactly when the transit time stays what it was at first. -/
theorem transitDelta_eq_zero_iff {own : List Arrival} {n : Nat} (h : own.length = n + 1) :
    (∀ i ∈ Finset.Icc 1 n, |transitDelta own i| = 0) ↔
      ∀ a ∈ own, ∀ b ∈ own, a.transit = b.transit := by
  constructor
  · intro hzero
    have hfirst : ∀ i, i ≤ n → transitAt own i = transitAt own 0 := by
      intro i hi
      induction i with
      | zero => rfl
      | succ i ih =>
        have hstep := abs_eq_zero.mp (hzero (i + 1) (Finset.mem_Icc.mpr ⟨by omega, hi⟩))
        rw [transitDelta, Nat.add_sub_cancel] at hstep
        exact (sub_eq_zero.mp hstep).trans (ih (by omega))
    intro a ha b hb
    obtain ⟨i, hi, rfl⟩ := List.getElem_of_mem ha
    obtain ⟨j, hj, rfl⟩ := List.getElem_of_mem hb
    rw [← transitAt_eq hi, ← transitAt_eq hj, hfirst i (by omega), hfirst j (by omega)]
  · intro hequal i hi
    rw [Finset.mem_Icc] at hi
    have hi0 : i < own.length := by omega
    have hi1 : i - 1 < own.length := by omega
    rw [abs_eq_zero, transitDelta, transitAt_eq hi0, transitAt_eq hi1, sub_eq_zero]
    exact hequal _ (List.getElem_mem hi0) _ (List.getElem_mem hi1)

theorem arrivalsOf_delayed (c : ℚ) (ssrc : Int) (run : List Arrival) :
    arrivalsOf ssrc (delayed c run) = delayed c (arrivalsOf ssrc run) := by
  rw [arrivalsOf, arrivalsOf, delayed, delayed, List.filter_map]
  rfl

theorem transitAt_delayed {own : List Arrival} {rate : Int} (hrate : ∀ a ∈ own, a.clockRate = rate)
    (c : ℚ) {i : Nat} (h : i < own.length) :
    transitAt (delayed c own) i = transitAt own i + c * rate := by
  have h' : i < (delayed c own).length := by simpa [delayed] using h
  have hi := hrate own[i] (List.getElem_mem h)
  rw [transitAt_eq h', transitAt_eq h]
  simp only [delayed, List.getElem_map, Arrival.transit, hi]
  ring

theorem transitDelta_delayed {own : List Arrival} {rate : Int} {n : Nat}
    (hrate : ∀ a ∈ own, a.clockRate = rate) (hlen : own.length = n + 1) (c : ℚ) {i : Nat}
    (hi : i ∈ Finset.Icc 1 n) : transitDelta (delayed c own) i = transitDelta own i := by
  rw [Finset.mem_Icc] at hi
  rw [transitDelta, transitAt_delayed hrate c (by omega), transitAt_delayed hrate c (by omega),
    add_sub_add_right_eq_sub, transitDelta]

theorem transitAt_of_timing {own own' : List Arrival}
    (h : own'.map Arrival.timing = own.map Arrival.timing) (i : Nat) :
    transitAt own' i = transitAt own i := by
  have htransit : Arrival.transit =
      (fun timing : ℚ × Int × Int => timing.1 * timing.2.1 - timing.2.2) ∘ Arrival.timing := rfl
  rw [transitAt, transitAt, ← List.getElem?_map, ← List.getElem?_map, htransit,
    ← List.map_map, h, List.map_map]

/-- The jitter of a stream of `n + 1` observations in closed form, its bounds, and what it does
not depend on. -/
theorem trackedJitter_closed_form {run : List Arrival} {ssrc : Int} {n : Nat}
    (h : (arrivalsOf ssrc run).length = n + 1) :
    ∃ jitter, trackedJitter ssrc run = .ok (some jitter) ∧
      jitter = ∑ i ∈ Finset.Icc 1 n,
        |transitDelta (arrivalsOf ssrc run) i| / 16 * (15 / 16) ^ (n - i) ∧
      0 ≤ jitter ∧
      (0 < n → ∃ i ∈ Finset.Icc 1 n, jitter ≤ |transitDelta (arrivalsOf ssrc run) i|) ∧
      (jitter = 0 ↔
        ∀ a ∈ arrivalsOf ssrc run, ∀ b ∈ arrivalsOf ssrc run, a.transit = b.transit) ∧
      (∀ c rate, (∀ a ∈ arrivalsOf ssrc run, a.clockRate = rate) →
        trackedJitter ssrc (delayed c run) = .ok (some jitter)) ∧
      ∀ (run' : List Arrival) (ssrc' : Int),
        (arrivalsOf ssrc' run').map Arrival.timing = (arrivalsOf ssrc run).map Arrival.timing →
          trackedJitter ssrc' run' = .ok (some jitter) := by
  have hd : (1 : ℚ) < 16 := by norm_num
  have hweight : (1 : ℚ) - 1 / 16 = 15 / 16 := by norm_num
  have hnonneg : ∀ i ∈ Finset.Icc 1 n, 0 ≤ |transitDelta (arrivalsOf ssrc run) i| :=
    fun i _ => abs_nonneg _
  refine ⟨_, trackedJitter_eq h, ?_, Smoothing.smoothed_nonneg hd hnonneg,
    Smoothing.exists_smoothed_le hd hnonneg, ?_, ?_, ?_⟩
  · rw [Smoothing.smoothed_eq_sum, hweight]
  · rw [Smoothing.smoothed_eq_zero_iff hd hnonneg, transitDelta_eq_zero_iff h]
  · intro c rate hrate
    have hlen : (arrivalsOf ssrc (delayed c run)).length = n + 1 := by
      rw [arrivalsOf_delayed, delayed, List.length_map, h]
    rw [← trackedJitter_eq h]
    refine trackedJitter_congr h hlen fun i hi => ?_
    rw [arrivalsOf_delayed, transitDelta_delayed hrate h c hi]
  · intro run' ssrc' htiming
    have hlen : (arrivalsOf ssrc' run').length = n + 1 := by
      have hlengths := congrArg List.length htiming
      rwa [List.length_map, List.length_map, h] at hlengths
    rw [← trackedJitter_eq h]
    refine trackedJitter_congr h hlen fun i _ => ?_
    rw [transitDelta, transitDelta, transitAt_of_timing htiming, transitAt_of_timing htiming]

/-- Three packets of one stream, the third of which repeats the second, beside another stream. -/
def repeatedRun : List Arrival :=
  [{ packet := plainPacket 1 0 0, arrivalTime := 0 },
    { packet := plainPacket 2 0 0, arrivalTime := 5 },
    { packet := plainPacket 1 1 160, arrivalTime := 1 / 25 },
    { packet := plainPacket 1 1 160, arrivalTime := 1 / 25 }]

theorem trackedJitter_closed_form_repeated :
    ∃ jitter, trackedJitter 1 repeatedRun = .ok (some jitter) ∧ 0 < jitter := by
  have hlen : (arrivalsOf 1 repeatedRun).length = 2 + 1 := by decide
  obtain ⟨jitter, htracked, -, hnonneg, -, hzero, -⟩ := trackedJitter_closed_form hlen
  refine ⟨jitter, htracked, lt_of_le_of_ne hnonneg fun hequal => ?_⟩
  exact absurd (hzero.mp hequal.symm) (by decide +kernel)

end Rtpkit

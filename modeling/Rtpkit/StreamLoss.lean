import Rtpkit.StreamUnwrap

namespace Rtpkit

open ArrivalOrder (missing below)

/-- The loss reported for a stream is its gaps less the numbers observed below the first, so
no gap is hidden exactly when there are none of these or no gap. -/
theorem lostCount_clamped {run : List Arrival} {ssrc : Int}
    (h : ssrc ∈ (trackerAfter run).ssrcs) :
    ∃ st, (trackerAfter run).stats ssrc = .ok (some st) ∧
      let lost := missing (observedSeqs ssrc run) st.firstExtendedSequence
        st.highestExtendedSequence
      let early := below (observedSeqs ssrc run) st.firstExtendedSequence
      st.lostCount = max 0 ((lost.card : Int) - early.card) ∧
      (st.lostCount = lost.card ↔ early = ∅ ∨ lost = ∅) := by
  obtain ⟨st, hst, hsum⟩ := exists_stats run ssrc (mem_ssrcs_iff.mp h)
  have hlost := hsum.lostCount_eq
  rw [← observedSeqs_eq] at hlost
  refine ⟨st, hst, hlost, ?_⟩
  rw [hlost, ← Finset.card_eq_zero, ← Finset.card_eq_zero]
  omega

theorem lostCount_clamped_gap :
    ∃ st, (trackerAfter (seqRun [0, 1, 2, 5, 6])).stats 1 = .ok (some st) ∧
      st.lostCount = 2 := by
  obtain ⟨st, hst, -, hiff⟩ :=
    @lostCount_clamped (seqRun [0, 1, 2, 5, 6]) 1 (by decide +kernel)
  have hvalue : (trackerAfter (seqRun [0, 1, 2, 5, 6])).stats 1 = .ok (some
      ⟨1, 8, 5, 7, 2, 0, 0, 0, 6, 0⟩) := by decide +kernel
  rw [hst] at hvalue
  cases hvalue
  exact ⟨_, hst, hiff.mpr (Or.inl (by decide +kernel))⟩

/-- A packet from before the first one hides the gap at 11. -/
theorem lostCount_hides_gap :
    ¬∀ (run : List Arrival) (ssrc : Int), ssrc ∈ (trackerAfter run).ssrcs →
      ∃ st, (trackerAfter run).stats ssrc = .ok (some st) ∧
        st.lostCount = (missing (observedSeqs ssrc run) st.firstExtendedSequence
          st.highestExtendedSequence).card := by
  intro hall
  obtain ⟨st, hst, hlost⟩ := hall (seqRun [10, 9, 12]) 1 (by decide +kernel)
  have hvalue : (trackerAfter (seqRun [10, 9, 12])).stats 1 = .ok (some
      ⟨1, 8, 3, 3, 0, 1, 0, 10, 12, 0⟩) := by decide +kernel
  rw [hst] at hvalue
  cases hvalue
  exact absurd hlost (by decide +kernel)

end Rtpkit

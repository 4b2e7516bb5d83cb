import Rtpkit.StreamRun

namespace Rtpkit

open ArrivalOrder (repeats late missing below)

theorem map_fst_assignments {run : List Arrival} {ssrc : Int}
    (h : ∀ a ∈ run, a.packet.ssrc = ssrc) :
    (assignments run).map Prod.fst = extendedSeqs run := by
  induction run using List.reverseRecOn with
  | nil => rfl
  | append_singleton run a ih =>
    have hrun : ∀ b ∈ run, b.packet.ssrc = ssrc := fun b hb => h b (by simp [hb])
    have ha : a.packet.ssrc = ssrc := h a (by simp)
    have htracks := tracks_stateFor run a.packet
    rw [ha, arrivalsOf_eq_self hrun] at htracks
    rw [assignments_concat, List.map_append, ih hrun, htracks.extendedSeqs_step]
    rfl

/-- The clamped count sets the gaps of the range off against the numbers below it. -/
theorem Summarises.lostCount_eq {run : List Arrival} {st : RtpStreamStats}
    (h : Summarises run st) :
    st.lostCount =
      max 0 ((missing (extendedSeqs run) st.firstExtendedSequence
          st.highestExtendedSequence).card -
        (below (extendedSeqs run) st.firstExtendedSequence).card : Int) := by
  obtain ⟨hmem, hle⟩ := List.max?_eq_some_iff.mp h.highest
  have hfirst := hle _ (List.mem_of_mem_head? h.first)
  have hcard := ArrivalOrder.card_missing st.firstExtendedSequence hle
  rw [Int.card_Icc] at hcard
  rw [h.lostCount, h.expectedCount]
  omega

/-- A counter that moves less than half the cycle from its running maximum is recovered
from its low sixteen bits, with all its statistics. -/
theorem tracker_unwraps {run : List Arrival} {ssrc n₀ : Int} {ns : List Int}
    (hssrc : ∀ a ∈ run, a.packet.ssrc = ssrc)
    (hseq : run.map (fun a => a.packet.sequenceNumber) = (n₀ :: ns).map (· % 65536))
    (hfirst : 0 ≤ n₀ ∧ n₀ ≤ 65535)
    (hnear : ∀ i n m, (n₀ :: ns)[i]? = some n → ((n₀ :: ns).take i).max? = some m →
      |n - m| < 32768) :
    (assignments run).map Prod.fst = n₀ :: ns ∧
    ∃ st, (trackerAfter run).stats ssrc = .ok (some st) ∧
      st.packetCount = ns.length + 1 ∧
      st.firstExtendedSequence = n₀ ∧
      (n₀ :: ns).max? = some st.highestExtendedSequence ∧
      st.duplicateCount = repeats (n₀ :: ns) ∧
      st.outOfOrderCount = late (n₀ :: ns) ∧
      ((∀ n ∈ ns, n₀ ≤ n) →
        st.lostCount = (missing (n₀ :: ns) n₀ st.highestExtendedSequence).card) := by
  have hseqs : extendedSeqs run = n₀ :: ns := by
    unfold extendedSeqs
    rw [hseq]
    refine SerialNumber.unwrapAll_of_near 32768 ?_ hnear
    intro n hn
    cases hn
    omega
  refine ⟨by rw [map_fst_assignments hssrc, hseqs], ?_⟩
  have hne : arrivalsOf ssrc run ≠ [] := by
    rw [arrivalsOf_eq_self hssrc]
    rintro rfl
    simp at hseq
  obtain ⟨st, hst, hsum⟩ := exists_stats run ssrc hne
  rw [arrivalsOf_eq_self hssrc] at hsum
  have hlost := hsum.lostCount_eq
  have hlen := hsum.packetCount
  rw [← length_extendedSeqs, hseqs, List.length_cons] at hlen
  have hhead := hsum.first
  rw [hseqs] at hhead
  cases hhead
  rw [hseqs] at hlost
  refine ⟨st, hst, hlen, rfl, by rw [← hseqs, hsum.highest], by rw [← hseqs, hsum.duplicateCount],
    by rw [← hseqs, hsum.outOfOrderCount], ?_⟩
  intro hlow
  have hall : ∀ n ∈ st.firstExtendedSequence :: ns, st.firstExtendedSequence ≤ n := by
    simpa using hlow
  rw [hlost, ArrivalOrder.below_eq_empty hall, Finset.card_empty]
  omega

theorem tracker_unwraps_rollover :
    (assignments (seqRun [65534, 65535, 1, 65533, 65535])).map Prod.fst =
      [65534, 65535, 65537, 65533, 65535] ∧
    ∃ st, (trackerAfter (seqRun [65534, 65535, 1, 65533, 65535])).stats 1 = .ok (some st) ∧
      st.packetCount = 5 ∧ st.firstExtendedSequence = 65534 ∧
      st.highestExtendedSequence = 65537 ∧ st.duplicateCount = 1 ∧ st.outOfOrderCount = 1 := by
  have hnear : ∀ i < 5, ∀ n ∈ ([65534, 65535, 65537, 65533, 65535] : List Int)[i]?,
      ∀ m ∈ (([65534, 65535, 65537, 65533, 65535] : List Int).take i).max?, |n - m| < 32768 := by
    decide +kernel
  obtain ⟨hseqs, st, hst, hcount, hfirst, hhighest, hdup, hlate, -⟩ :=
    @tracker_unwraps (seqRun [65534, 65535, 1, 65533, 65535]) 1 65534
      [65535, 65537, 65533, 65535] (by decide) (by decide) (by decide)
      fun i n m hn hm => hnear i (List.getElem?_eq_some_iff.mp hn).1 n hn m hm
  refine ⟨hseqs, st, hst, hcount, hfirst, ?_, hdup.trans (by decide), hlate.trans (by decide)⟩
  exact (Option.some.inj (hhighest.symm.trans (by decide)))

end Rtpkit

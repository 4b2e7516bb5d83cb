import Rtpkit.StreamLog

namespace Rtpkit

open ArrivalOrder (repeats late)

def arrivalsOf (ssrc : Int) (run : List Arrival) : List Arrival :=
  run.filter fun a => a.packet.ssrc = ssrc

/-- The state of one stream after its own arrivals alone. -/
def streamAfter (run : List Arrival) : Option StreamState :=
  run.foldl (fun s a => some ((s.getD { payloadType := a.packet.payloadType }).step a)) none

theorem streamAfter_concat (run : List Arrival) (a : Arrival) :
    streamAfter (run ++ [a]) =
      some (((streamAfter run).getD { payloadType := a.packet.payloadType }).step a) := by
  simp [streamAfter]

theorem streamAfter_eq_none_iff {run : List Arrival} : streamAfter run = none ↔ run = [] := by
  induction run using List.reverseRecOn with
  | nil => simp [streamAfter]
  | append_singleton run a ih => simp [streamAfter_concat]

theorem ne_nil_of_streamAfter {run : List Arrival} {s : StreamState}
    (h : streamAfter run = some s) : run ≠ [] := by
  rintro rfl
  simp [streamAfter] at h

theorem trackerAfter_concat (run : List Arrival) (a : Arrival) :
    trackerAfter (run ++ [a]) = (trackerAfter run).step a := by
  simp [trackerAfter]

/-- The streams are listed in the order of their first packets. -/
theorem ssrcs_concat (run : List Arrival) (a : Arrival) :
    (trackerAfter (run ++ [a])).ssrcs =
      if a.packet.ssrc ∈ (trackerAfter run).ssrcs then (trackerAfter run).ssrcs
      else (trackerAfter run).ssrcs ++ [a.packet.ssrc] := by
  rw [trackerAfter_concat]
  exact OrderedDict.keys_set _ _ _

theorem arrivalsOf_concat_self {ssrc : Int} {run : List Arrival} {a : Arrival}
    (h : a.packet.ssrc = ssrc) : arrivalsOf ssrc (run ++ [a]) = arrivalsOf ssrc run ++ [a] := by
  simp [arrivalsOf, List.filter_append, h]

theorem arrivalsOf_concat_other {ssrc : Int} {run : List Arrival} {a : Arrival}
    (h : a.packet.ssrc ≠ ssrc) : arrivalsOf ssrc (run ++ [a]) = arrivalsOf ssrc run := by
  simp [arrivalsOf, List.filter_append, h]

theorem arrivalsOf_eq_self {ssrc : Int} {run : List Arrival}
    (h : ∀ a ∈ run, a.packet.ssrc = ssrc) : arrivalsOf ssrc run = run := by
  simpa [arrivalsOf] using h

theorem stateFor_eq (tracker : RtpStreamTracker) (packet : RtpPacket) :
    tracker.stateFor packet =
      (tracker.states.get? packet.ssrc).getD { payloadType := packet.payloadType } := by
  unfold RtpStreamTracker.stateFor
  split
  next h => rw [h]; rfl
  next state h => rw [h]; rfl

/-- Streams do not disturb each other. -/
theorem get?_trackerAfter (run : List Arrival) (ssrc : Int) :
    (trackerAfter run).states.get? ssrc = streamAfter (arrivalsOf ssrc run) := by
  induction run using List.reverseRecOn with
  | nil => rfl
  | append_singleton run a ih =>
    rw [trackerAfter_concat, RtpStreamTracker.step, RtpStreamTracker.observe,
      OrderedDict.get?_set, stateFor_eq]
    by_cases h : a.packet.ssrc = ssrc
    · subst h
      rw [if_pos rfl, ih, arrivalsOf_concat_self rfl, streamAfter_concat]
      rfl
    · rw [if_neg (Ne.symm h), ih, arrivalsOf_concat_other h]

theorem tracks_getD_streamAfter (run : List Arrival) (payloadType : Int) :
    Tracks run ((streamAfter run).getD { payloadType := payloadType }) := by
  induction run using List.reverseRecOn generalizing payloadType with
  | nil => exact tracks_fresh payloadType
  | append_singleton run a ih =>
    rw [streamAfter_concat]
    exact (ih a.packet.payloadType).step a

theorem tracks_streamAfter {run : List Arrival} {s : StreamState} (h : streamAfter run = some s) :
    Tracks run s := by
  have htracks := tracks_getD_streamAfter run 0
  rwa [h] at htracks

theorem tracks_stateFor (run : List Arrival) (packet : RtpPacket) :
    Tracks (arrivalsOf packet.ssrc run) ((trackerAfter run).stateFor packet) := by
  rw [stateFor_eq, get?_trackerAfter]
  exact tracks_getD_streamAfter _ _

theorem exists_state {run : List Arrival} {ssrc : Int} (h : arrivalsOf ssrc run ≠ []) :
    ∃ s, (trackerAfter run).states.get? ssrc = some s ∧ Tracks (arrivalsOf ssrc run) s := by
  cases hstate : (trackerAfter run).states.get? ssrc with
  | none =>
    rw [get?_trackerAfter] at hstate
    exact absurd (streamAfter_eq_none_iff.mp hstate) h
  | some s =>
    rw [get?_trackerAfter] at hstate
    exact ⟨s, rfl, tracks_streamAfter hstate⟩

theorem mem_ssrcs_iff {run : List Arrival} {ssrc : Int} :
    ssrc ∈ (trackerAfter run).ssrcs ↔ arrivalsOf ssrc run ≠ [] := by
  have hnone := (trackerAfter run).states.get?_eq_none_iff ssrc
  rw [get?_trackerAfter, streamAfter_eq_none_iff] at hnone
  rw [Ne, hnone, not_not]
  rfl

/-- The numbers a run makes the tracker give, each with its packet. -/
def RtpStreamTracker.assignments (self : RtpStreamTracker) :
    List Arrival → List (Int × RtpPacket)
  | [] => []
  | a :: run => (self.extSeqOf a.packet, a.packet) :: (self.step a).assignments run

theorem RtpStreamTracker.assignments_concat (self : RtpStreamTracker) (run : List Arrival)
    (a : Arrival) : self.assignments (run ++ [a]) = self.assignments run ++
      [((run.foldl RtpStreamTracker.step self).extSeqOf a.packet, a.packet)] := by
  induction run generalizing self with
  | nil => rfl
  | cons b run ih => simp [RtpStreamTracker.assignments, ih]

/-- The packets of a run with the numbers a fresh tracker gives them. -/
def assignments (run : List Arrival) : List (Int × RtpPacket) :=
  RtpStreamTracker.assignments {} run

theorem assignments_concat (run : List Arrival) (a : Arrival) :
    assignments (run ++ [a]) =
      assignments run ++ [((trackerAfter run).extSeqOf a.packet, a.packet)] :=
  RtpStreamTracker.assignments_concat {} run a

/-- The tracker numbers each stream as its own residues determine. -/
theorem filter_assignments (run : List Arrival) (ssrc : Int) :
    (assignments run).filter (fun e => e.2.ssrc = ssrc) =
      numberedPackets (arrivalsOf ssrc run) := by
  induction run using List.reverseRecOn with
  | nil => rfl
  | append_singleton run a ih =>
    rw [assignments_concat, List.filter_append, ih]
    by_cases h : a.packet.ssrc = ssrc
    · subst h
      rw [arrivalsOf_concat_self rfl, (tracks_stateFor run a.packet).numberedPackets_step]
      simp [RtpStreamTracker.extSeqOf]
    · rw [arrivalsOf_concat_other h]
      simp [h]

/-- The extended numbers observed for one stream, in the order of arrival. -/
def observedSeqs (ssrc : Int) (run : List Arrival) : List Int :=
  ((assignments run).filter fun e => e.2.ssrc = ssrc).map Prod.fst

theorem observedSeqs_eq (ssrc : Int) (run : List Arrival) :
    observedSeqs ssrc run = extendedSeqs (arrivalsOf ssrc run) := by
  unfold observedSeqs
  rw [filter_assignments, map_fst_numberedPackets]

/-- The statistics are those of the numbers of a run. -/
structure Summarises (run : List Arrival) (st : RtpStreamStats) : Prop where
  packetCount : st.packetCount = run.length
  duplicateCount : st.duplicateCount = repeats (extendedSeqs run)
  outOfOrderCount : st.outOfOrderCount = late (extendedSeqs run)
  first : (extendedSeqs run).head? = some st.firstExtendedSequence
  highest : (extendedSeqs run).max? = some st.highestExtendedSequence
  expectedCount :
    st.expectedCount = st.highestExtendedSequence - st.firstExtendedSequence + 1
  lostCount : st.lostCount = max 0 (st.expectedCount - (extendedSeqs run).toFinset.card)

theorem Summarises.unique_count {run : List Arrival} {st : RtpStreamStats}
    (h : Summarises run st) :
    (st.packetCount : Int) - st.duplicateCount = (extendedSeqs run).toFinset.card := by
  have hunique := ArrivalOrder.repeats_add_card (extendedSeqs run)
  rw [length_extendedSeqs, ← h.packetCount, ← h.duplicateCount] at hunique
  omega

theorem Tracks.snapshot {run : List Arrival} {s : StreamState} (h : Tracks run s)
    (hne : run ≠ []) (ssrc : Int) :
    ∃ st, s.snapshot ssrc = .ok st ∧ st.ssrc = ssrc ∧ st.jitter = s.jitter ∧
      Summarises run st := by
  have hseqs := extendedSeqs_ne_nil hne
  have hunique := ArrivalOrder.repeats_add_card (extendedSeqs run)
  rw [length_extendedSeqs, ← h.duplicateCount, ← h.packetCount] at hunique
  obtain ⟨first, hfirst⟩ := Option.isSome_iff_exists.mp (List.isSome_head?.mpr hseqs)
  obtain ⟨highest, hhighest⟩ := Option.isSome_iff_exists.mp (List.isSome_max?_of_ne_nil hseqs)
  have hsnap := StreamState.snapshot_eq (h.firstExtSeq.trans hfirst)
    (h.highestExtSeq.trans hhighest) ssrc
  refine ⟨_, hsnap, rfl, rfl, ?_⟩
  exact {
    packetCount := h.packetCount
    duplicateCount := h.duplicateCount
    outOfOrderCount := h.outOfOrderCount
    first := hfirst
    highest := hhighest
    expectedCount := rfl
    lostCount := by dsimp only; omega }

theorem exists_stats (run : List Arrival) (ssrc : Int) (h : arrivalsOf ssrc run ≠ []) :
    ∃ st, (trackerAfter run).stats ssrc = .ok (some st) ∧
      Summarises (arrivalsOf ssrc run) st := by
  obtain ⟨s, hs, htracks⟩ := exists_state h
  obtain ⟨st, hst, -, -, hsum⟩ := htracks.snapshot h ssrc
  refine ⟨st, ?_, hsum⟩
  unfold RtpStreamTracker.stats
  rw [hs]
  simp [hst]

theorem stats_eq_none {run : List Arrival} {ssrc : Int} (h : arrivalsOf ssrc run = []) :
    (trackerAfter run).stats ssrc = .ok none := by
  unfold RtpStreamTracker.stats
  rw [get?_trackerAfter, h]
  rfl

theorem summarises_of_stats {run : List Arrival} {ssrc : Int} {st : RtpStreamStats}
    (h : (trackerAfter run).stats ssrc = .ok (some st)) :
    Summarises (arrivalsOf ssrc run) st := by
  have hne : arrivalsOf ssrc run ≠ [] := by
    intro hnil
    rw [stats_eq_none hnil] at h
    simp at h
  obtain ⟨st', hst', hsum⟩ := exists_stats run ssrc hne
  rw [h] at hst'
  cases hst'
  exact hsum

end Rtpkit

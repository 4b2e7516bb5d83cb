import Rtpkit.StreamShift

namespace Rtpkit

open SerialNumber (SameSide)

/-- The packet does not stand half the cycle away from the highest number so far, or the
shift leaves that number in the same half of its cycle. -/
def KeepsSide (c : Int) (tracker : RtpStreamTracker) (packet : RtpPacket) : Prop :=
  ∀ highest, (tracker.stateFor packet).highestExtSeq = some highest →
    SameSide 32768 c highest packet.sequenceNumber

instance (c : Int) (tracker : RtpStreamTracker) (packet : RtpPacket) :
    Decidable (KeepsSide c tracker packet) :=
  inferInstanceAs (Decidable (∀ highest ∈ (tracker.stateFor packet).highestExtSeq,
    SameSide 32768 c highest packet.sequenceNumber))

theorem keepsSide_iff {c ssrc : Int} {run : List Arrival} {a : Arrival}
    (hrun : ∀ b ∈ run, b.packet.ssrc = ssrc) (ha : a.packet.ssrc = ssrc) :
    KeepsSide c (trackerAfter run) a.packet ↔ ∀ highest,
      (extendedSeqs run).max? = some highest →
        SameSide 32768 c highest a.packet.sequenceNumber := by
  have htracks := tracks_stateFor run a.packet
  rw [ha, arrivalsOf_eq_self hrun] at htracks
  unfold KeepsSide
  rw [htracks.highestExtSeq]

theorem shiftedBy_singleton (c : Int) (a : Arrival) :
    ShiftedBy c ((a.packet.sequenceNumber + c) % 65536 - a.packet.sequenceNumber) [a] := by
  constructor
  · omega
  · simp [shiftRun, extendedSeqs, SerialNumber.unwrapAll, SerialNumber.extend,
      Arrival.shiftSequence, RtpPacket.shiftSequence]

theorem ShiftedBy.concat {c k : Int} {run : List Arrival} {a : Arrival} (h : ShiftedBy c k run)
    (hne : run ≠ [])
    (hseq : 0 ≤ a.packet.sequenceNumber ∧ a.packet.sequenceNumber < 65536)
    (hside : ∀ highest, (extendedSeqs run).max? = some highest →
      SameSide 32768 c highest a.packet.sequenceNumber) : ShiftedBy c k (run ++ [a]) := by
  refine ⟨h.1, ?_⟩
  obtain ⟨highest, hmax⟩ := Option.isSome_iff_exists.mp
    (List.isSome_max?_of_ne_nil (extendedSeqs_ne_nil hne))
  have hnext := SerialNumber.unwrap_shift 32768 hseq.1 hseq.2 h.1 (hside highest hmax)
  rw [shiftRun_concat, extendedSeqs_concat, extendedSeqs_concat, h.2,
    SerialNumber.max?_map_add, hmax, List.map_append]
  exact congrArg (fun n => _ ++ [n]) hnext

theorem exists_shiftedBy {c ssrc : Int} {run : List Arrival}
    (hssrc : ∀ a ∈ run, a.packet.ssrc = ssrc)
    (hseq : ∀ a ∈ run, 0 ≤ a.packet.sequenceNumber ∧ a.packet.sequenceNumber < 65536)
    (hkeeps : ∀ before a, before ++ [a] <+: run →
      KeepsSide c (trackerAfter before) a.packet) : ∃ k, ShiftedBy c k run := by
  induction run using List.reverseRecOn with
  | nil => exact ⟨c, rfl, rfl⟩
  | append_singleton run a ih =>
    by_cases hne : run = []
    · subst hne
      exact ⟨_, shiftedBy_singleton c a⟩
    · have hrun : ∀ b ∈ run, b.packet.ssrc = ssrc := fun b hb => hssrc b (by simp [hb])
      obtain ⟨k, hk⟩ := ih hrun (fun b hb => hseq b (by simp [hb]))
        fun before b hb => hkeeps before b (hb.trans (List.prefix_append run [a]))
      have hlast := hkeeps run a (List.prefix_refl _)
      exact ⟨k, hk.concat hne (hseq a (by simp))
        ((keepsSide_iff hrun (hssrc a (by simp))).mp hlast)⟩

theorem Summarises.expectedCount_concat {run : List Arrival} {a : Arrival}
    {st : RtpStreamStats} {first highest : Int} (h : Summarises (run ++ [a]) st)
    (hfirst : (extendedSeqs run).head? = some first)
    (hhighest : (extendedSeqs run).max? = some highest) :
    st.expectedCount =
      max highest (SerialNumber.unwrap 32768 highest a.packet.sequenceNumber) - first + 1 := by
  have hf := h.first
  have hh := h.highest
  rw [extendedSeqs_concat, List.head?_append, hfirst] at hf
  rw [extendedSeqs_concat, SerialNumber.max?_concat, hhighest] at hh
  rw [h.expectedCount, ← Option.some.inj hf, ← Option.some.inj hh]
  rfl

/-- The counters alone reveal a step that changes the side. -/
theorem ShiftedBy.keepsSide {c k ssrc : Int} {run : List Arrival} {a : Arrival}
    (h : ShiftedBy c k run) (hrun : ∀ b ∈ run, b.packet.ssrc = ssrc)
    (ha : a.packet.ssrc = ssrc)
    (hseq : 0 ≤ a.packet.sequenceNumber ∧ a.packet.sequenceNumber < 65536)
    (hview : SameView c ssrc (run ++ [a])) : KeepsSide c (trackerAfter run) a.packet := by
  rw [keepsSide_iff hrun ha]
  intro highest hhighest
  have hown : arrivalsOf ssrc (run ++ [a]) = run ++ [a] := by
    rw [arrivalsOf_concat_self ha, arrivalsOf_eq_self hrun]
  obtain ⟨st, hst, hsum⟩ := exists_stats (run ++ [a]) ssrc (by simp [hown])
  obtain ⟨st', hst', hsum'⟩ := exists_stats (shiftRun c (run ++ [a])) ssrc
    (by rw [arrivalsOf_shiftRun, hown]; simp [shiftRun])
  have hexpected : st'.expectedCount = st.expectedCount := by
    have hcounters := hview.counters
    rw [hst, hst'] at hcounters
    have hall : st'.counters = st.counters := by simpa using hcounters
    exact congrArg (fun counters => counters.2.1) hall
  rw [hown] at hsum
  rw [arrivalsOf_shiftRun, hown, shiftRun_concat] at hsum'
  have hne : extendedSeqs run ≠ [] := by
    intro hnil
    rw [hnil] at hhighest
    simp at hhighest
  obtain ⟨first, hfirst⟩ := Option.isSome_iff_exists.mp (List.isSome_head?.mpr hne)
  have hplain := hsum.expectedCount_concat hfirst hhighest
  have hshifted : st'.expectedCount = max (highest + k)
      (SerialNumber.unwrap 32768 (highest + k) ((a.packet.sequenceNumber + c) % 65536)) -
        (first + k) + 1 := by
    apply hsum'.expectedCount_concat
    · rw [h.2, List.head?_map, hfirst]
      rfl
    · rw [h.2, SerialNumber.max?_map_add, hhighest]
      rfl
  apply SerialNumber.sameSide_of_max_eq hseq.1 hseq.2 h.1
  change max _ (SerialNumber.unwrap 32768 (highest + k) ((a.packet.sequenceNumber + c) % 65536)) = _
  omega

theorem keepsSide_of_sameView {c ssrc : Int} {run : List Arrival}
    (hssrc : ∀ a ∈ run, a.packet.ssrc = ssrc)
    (hseq : ∀ a ∈ run, 0 ≤ a.packet.sequenceNumber ∧ a.packet.sequenceNumber < 65536)
    (hview : ∀ before, before <+: run → SameView c ssrc before) :
    ∀ before a, before ++ [a] <+: run → KeepsSide c (trackerAfter before) a.packet := by
  induction run using List.reverseRecOn with
  | nil =>
    intro before a h
    simp at h
  | append_singleton run a ih =>
    have hrun : ∀ b ∈ run, b.packet.ssrc = ssrc := fun b hb => hssrc b (by simp [hb])
    have hseqRun : ∀ b ∈ run, 0 ≤ b.packet.sequenceNumber ∧ b.packet.sequenceNumber < 65536 :=
      fun b hb => hseq b (by simp [hb])
    have hkeeps := ih hrun hseqRun
      fun before hb => hview before (hb.trans (List.prefix_append run [a]))
    intro before b hb
    rcases List.prefix_concat_iff.mp hb with heq | hb
    · obtain ⟨rfl, hab⟩ := List.append_inj' heq rfl
      cases hab
      obtain ⟨k, hk⟩ := exists_shiftedBy hrun hseqRun hkeeps
      exact hk.keepsSide hrun (hssrc a (by simp)) (hseq a (by simp))
        (hview _ (List.prefix_refl _))
    · exact hkeeps before b hb

/-- The initial sequence number stays invisible exactly as long as no step changes the side
of a packet half the cycle away. -/
theorem sameView_iff_keepsSide {c ssrc : Int} {run : List Arrival}
    (hssrc : ∀ a ∈ run, a.packet.ssrc = ssrc)
    (hseq : ∀ a ∈ run, 0 ≤ a.packet.sequenceNumber ∧ a.packet.sequenceNumber < 65536) :
    (∀ before, before <+: run → SameView c ssrc before) ↔
      ∀ before a, before ++ [a] <+: run → KeepsSide c (trackerAfter before) a.packet := by
  constructor
  · exact keepsSide_of_sameView hssrc hseq
  · intro hkeeps before hbefore
    have hown : arrivalsOf ssrc before = before :=
      arrivalsOf_eq_self fun a ha => hssrc a (hbefore.subset ha)
    obtain ⟨k, hk⟩ := exists_shiftedBy (fun a ha => hssrc a (hbefore.subset ha))
      (fun a ha => hseq a (hbefore.subset ha))
      fun earlier a ha => hkeeps earlier a (ha.trans hbefore)
    exact sameView_of_shiftedBy (by rwa [hown])

theorem sameView_iff_keepsSide_half : SameView 1 1 (seqRun [0, 32768, 32769]) := by
  refine (sameView_iff_keepsSide (by decide) (by decide)).mpr ?_ _ (List.prefix_refl _)
  intro before a h
  have hsteps : ∀ i < 3, ∀ b ∈ (seqRun [0, 32768, 32769])[i]?,
      KeepsSide 1 (trackerAfter ((seqRun [0, 32768, 32769]).take i)) b.packet := by
    decide +kernel
  have hat := ArrivalOrder.getElem?_of_concat h
  have htake := List.prefix_iff_eq_take.mp ((List.prefix_append before [a]).trans h)
  have hlt := (List.getElem?_eq_some_iff.mp hat).1
  have hkeeps := hsteps before.length hlt a hat
  rwa [← htake] at hkeeps

/-- Two packets half the cycle apart: the second is new for a sender that starts at 0 and
late for one that starts at 32768. -/
theorem sameView_fails_at_half :
    ¬∀ (c ssrc : Int) (run : List Arrival), (∀ a ∈ run, a.packet.ssrc = ssrc) →
      (∀ a ∈ run, 0 ≤ a.packet.sequenceNumber ∧ a.packet.sequenceNumber < 65536) →
      ∀ before, before <+: run → SameView c ssrc before := by
  intro hall
  have hview := hall 32768 1 (seqRun [0, 32768]) (by decide) (by decide) _ (List.prefix_refl _)
  exact absurd hview.counters (by decide +kernel)

end Rtpkit

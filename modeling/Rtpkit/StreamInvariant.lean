import Rtpkit.StreamOrder
import Mathlib.Algebra.Order.Field.Basic
import Mathlib.Algebra.Order.Field.Rat

namespace Rtpkit

theorem numberedPackets_emod {run : List Arrival} {e : Int × RtpPacket}
    (h : e ∈ numberedPackets run) : e.2.sequenceNumber % 65536 = e.1 % 65536 := by
  induction run using List.reverseRecOn with
  | nil => simp [numberedPackets] at h
  | append_singleton run a ih =>
    rw [numberedPackets_concat, List.mem_append, List.mem_singleton] at h
    rcases h with h | rfl
    · exact ih h
    · exact (SerialNumber.extend_emod 32768 _ _).symm

theorem extendedSeqs_append (run later : List Arrival) :
    extendedSeqs run <+: extendedSeqs (run ++ later) := by
  induction later using List.reverseRecOn with
  | nil => simp
  | append_singleton later a ih =>
    rw [← List.append_assoc, extendedSeqs_concat]
    exact ih.trans (List.prefix_append _ _)

theorem extendedSeqs_head? (run : List Arrival) :
    (extendedSeqs run).head? = run.head?.map fun a => a.packet.sequenceNumber := by
  unfold extendedSeqs
  rw [SerialNumber.head?_unwrapAll, List.head?_map]

theorem Tracks.mem_keys_iff {run : List Arrival} {s : StreamState} (h : Tracks run s) (k : Int) :
    k ∈ s.packets.keys ↔ k ∈ extendedSeqs run := by
  rw [← not_iff_not, ← s.packets.get?_eq_none_iff, h.packets, OrderedDict.lookup_eq_none_iff,
    map_fst_numberedPackets]

theorem Tracks.length_keys {run : List Arrival} {s : StreamState} (h : Tracks run s) :
    s.packets.keys.length = (extendedSeqs run).toFinset.card := by
  rw [← List.toFinset_card_of_nodup s.packets.nodup_keys]
  congr 1
  ext k
  simp [h.mem_keys_iff]

theorem Summarises.highest_mono {run : List Arrival} {st st' : RtpStreamStats}
    (h : Summarises run st) (later : List Arrival) (h' : Summarises (run ++ later) st') :
    st.highestExtendedSequence ≤ st'.highestExtendedSequence := by
  have hmem := (List.max?_eq_some_iff.mp h.highest).1
  have hle := (List.max?_eq_some_iff.mp h'.highest).2
  exact hle _ ((extendedSeqs_append run later).subset hmem)

theorem Summarises.first_le_highest {run : List Arrival} {st : RtpStreamStats}
    (h : Summarises run st) : st.firstExtendedSequence ≤ st.highestExtendedSequence :=
  (List.max?_eq_some_iff.mp h.highest).2 _ (List.mem_of_mem_head? h.first)

/-- The first packet is neither late nor lost. -/
theorem Summarises.late_lost_bounds {run : List Arrival} {st : RtpStreamStats}
    (h : Summarises run st) :
    st.outOfOrderCount < (extendedSeqs run).toFinset.card ∧ 0 ≤ st.lostCount ∧
      st.lostCount < st.expectedCount := by
  have hne : extendedSeqs run ≠ [] := List.ne_nil_of_mem (List.mem_of_mem_head? h.first)
  have hlate := ArrivalOrder.late_lt_card hne
  rw [← h.outOfOrderCount] at hlate
  have hfirst := h.first_le_highest
  have hexpected := h.expectedCount
  have hlost := h.lostCount
  omega

theorem Summarises.first_nonneg {run : List Arrival} {st : RtpStreamStats}
    (h : Summarises run st) (hseq : ∀ a ∈ run, 0 ≤ a.packet.sequenceNumber) :
    0 ≤ st.firstExtendedSequence := by
  have hhead := h.first
  rw [extendedSeqs_head?] at hhead
  obtain ⟨a, ha, heq⟩ := Option.map_eq_some_iff.mp hhead
  rw [← heq]
  exact hseq a (List.mem_of_mem_head? ha)

/-- The highest number of a stream only grows along a run. -/
theorem highest_mono_stats {earlier later : List Arrival} {ssrc : Int} {st st' : RtpStreamStats}
    (h : (trackerAfter earlier).stats ssrc = .ok (some st))
    (h' : Summarises (arrivalsOf ssrc (earlier ++ later)) st') :
    st.highestExtendedSequence ≤ st'.highestExtendedSequence := by
  unfold arrivalsOf at h'
  rw [List.filter_append] at h'
  exact (summarises_of_stats h).highest_mono _ h'

theorem fractionLost_bounds {st : RtpStreamStats} (h0 : 0 ≤ st.lostCount)
    (hlt : st.lostCount < st.expectedCount) : 0 ≤ st.fractionLost ∧ st.fractionLost < 1 := by
  have hpos : (0 : ℚ) < st.expectedCount := by exact_mod_cast h0.trans_lt hlt
  unfold RtpStreamStats.fractionLost
  rw [if_pos (h0.trans_lt hlt)]
  constructor
  · exact div_nonneg (by exact_mod_cast h0) hpos.le
  · rw [div_lt_one hpos]
    exact_mod_cast hlt

theorem stats_of_entry {run : List Arrival} {entry : Int × StreamState}
    (h : entry ∈ (trackerAfter run).states.entries) :
    ∃ st, entry.2.snapshot entry.1 = .ok st ∧
      (trackerAfter run).stats entry.1 = .ok (some st) := by
  have hstate : (trackerAfter run).states.get? entry.1 = some entry.2 :=
    (OrderedDict.lookup_eq_some_iff_mem (trackerAfter run).states.nodup).mpr h
  have hstream := hstate
  rw [get?_trackerAfter] at hstream
  obtain ⟨st, hst, -⟩ := (tracks_streamAfter hstream).snapshot (ne_nil_of_streamAfter hstream)
    entry.1
  refine ⟨st, hst, ?_⟩
  unfold RtpStreamTracker.stats
  rw [hstate]
  simp [hst]

/-- The snapshot of all streams never fails; it has each stream once, as `stats` gives it. -/
theorem allStats_trackerAfter (run : List Arrival) :
    ∃ all, (trackerAfter run).allStats = .ok all ∧
      all.map Prod.fst = (trackerAfter run).ssrcs ∧
      ∀ e ∈ all, (trackerAfter run).stats e.1 = .ok (some e.2) := by
  have hok : ∀ entry ∈ (trackerAfter run).states.entries,
      ∃ e, (entry.1, ·) <$> entry.2.snapshot entry.1 = .ok e := by
    intro entry hentry
    obtain ⟨st, hst, -⟩ := stats_of_entry hentry
    exact ⟨(entry.1, st), Outcome.map_eq_ok.mpr ⟨st, hst, rfl⟩⟩
  obtain ⟨all, hall⟩ := Outcome.exists_mapM_eq_ok hok
  refine ⟨all, hall, ?_, ?_⟩
  · have hkeys : List.Forall₂ (fun entry e => entry.1 = e.1)
        (trackerAfter run).states.entries all := by
      refine (Outcome.mapM_eq_ok.mp hall).imp fun entry e h => ?_
      obtain ⟨st, -, rfl⟩ := Outcome.map_eq_ok.mp h
      rfl
    have hmap : List.Forall₂ Eq (trackerAfter run).ssrcs (all.map Prod.fst) :=
      List.forall₂_map_left_iff.mpr (List.forall₂_map_right_iff.mpr hkeys)
    rw [List.forall₂_eq_eq_eq] at hmap
    exact hmap.symm
  · intro e he
    obtain ⟨entry, hentry, h⟩ := (Outcome.mapM_mem hall).2 e he
    obtain ⟨st, hst, rfl⟩ := Outcome.map_eq_ok.mp h
    obtain ⟨st', hst', hstats⟩ := stats_of_entry hentry
    rw [hst] at hst'
    cases hst'
    exact hstats

/-- What links the state of a stream, its statistics and its retained packets. -/
structure StreamInvariant (run : List Arrival) (ssrc : Int) (s : StreamState)
    (st : RtpStreamStats) : Prop where
  seen_iff : ∀ k, k ∈ s.seenExtSeqs ↔ k ∈ s.packets.keys
  packetCount : st.packetCount = (arrivalsOf ssrc run).length
  unique_count : (st.packetCount : Int) - st.duplicateCount = s.packets.keys.length
  retained_emod : ∀ k p, s.packets.get? k = some p → p.sequenceNumber % 65536 = k % 65536
  retained_first : ∀ k p, s.packets.get? k = some p →
    ((assignments run).filter fun e => e.2.ssrc = ssrc).lookup k = some p
  highest_mem : st.highestExtendedSequence ∈ s.packets.keys
  le_highest : ∀ k ∈ s.packets.keys, k ≤ st.highestExtendedSequence
  highest_mono : ∀ earlier later st', run = earlier ++ later →
    (trackerAfter earlier).stats ssrc = .ok (some st') →
    st'.highestExtendedSequence ≤ st.highestExtendedSequence
  first_le_highest : st.firstExtendedSequence ≤ st.highestExtendedSequence
  first_nonneg : 0 ≤ st.firstExtendedSequence
  late_lt_unique : (st.outOfOrderCount : Int) < st.packetCount - st.duplicateCount
  lost_nonneg : 0 ≤ st.lostCount
  lost_lt_expected : st.lostCount < st.expectedCount
  fraction_nonneg : 0 ≤ st.fractionLost
  fraction_lt_one : st.fractionLost < 1
  ordered : ∃ es : List (Int × RtpPacket), es.Pairwise (fun a b => a.1 < b.1) ∧
    (∀ k p, (k, p) ∈ es ↔ s.packets.get? k = some p) ∧
    (trackerAfter run).orderedPackets ssrc = .ok (es.map Prod.snd)

theorem tracker_invariant {run : List Arrival} {ssrc : Int}
    (hseq : ∀ a ∈ run, 0 ≤ a.packet.sequenceNumber ∧ a.packet.sequenceNumber < 65536)
    (hobserved : ssrc ∈ (trackerAfter run).ssrcs) :
    ∃ s st, (trackerAfter run).states.get? ssrc = some s ∧
      (trackerAfter run).stats ssrc = .ok (some st) ∧ StreamInvariant run ssrc s st := by
  have hne := mem_ssrcs_iff.mp hobserved
  obtain ⟨s, hs, htracks⟩ := exists_state hne
  obtain ⟨st, hst, hsum⟩ := exists_stats run ssrc hne
  obtain ⟨hlate, hlost0, hlostlt⟩ := hsum.late_lost_bounds
  have hunique := hsum.unique_count
  have hlen := htracks.length_keys
  obtain ⟨hmem, hle⟩ := List.max?_eq_some_iff.mp hsum.highest
  refine ⟨s, st, hs, hst, ?_⟩
  constructor
  case seen_iff =>
    intro k
    rw [htracks.seenExtSeqs, List.mem_toFinset, htracks.mem_keys_iff]
  case packetCount => exact hsum.packetCount
  case unique_count => omega
  case retained_emod =>
    intro k p hp
    rw [htracks.packets, List.lookup_eq_some_iff] at hp
    obtain ⟨before, after, happ, -⟩ := hp
    have hentry : (k, p) ∈ numberedPackets (arrivalsOf ssrc run) := by rw [happ]; simp
    exact numberedPackets_emod hentry
  case retained_first =>
    intro k p hp
    rw [filter_assignments, ← htracks.packets, hp]
  case highest_mem => exact (htracks.mem_keys_iff _).mpr hmem
  case le_highest => exact fun k hk => hle k ((htracks.mem_keys_iff k).mp hk)
  case highest_mono =>
    rintro earlier later st' rfl hst'
    exact highest_mono_stats hst' hsum
  case first_le_highest => exact hsum.first_le_highest
  case first_nonneg =>
    exact hsum.first_nonneg fun a ha => (hseq a (List.mem_of_mem_filter ha)).1
  case late_lt_unique => omega
  case lost_nonneg => exact hlost0
  case lost_lt_expected => exact hlostlt
  case fraction_nonneg => exact (fractionLost_bounds hlost0 hlostlt).1
  case fraction_lt_one => exact (fractionLost_bounds hlost0 hlostlt).2
  case ordered =>
    obtain ⟨es, hpair, hlog, hordered⟩ := exists_orderedPackets run ssrc
    refine ⟨es, hpair, fun k p => ?_, hordered⟩
    rw [hlog, htracks.packets]

theorem tracker_invariant_mixed :
    ∃ s st, (trackerAfter (seqRun [7, 32775, 7] ++
        [{ packet := plainPacket 2 65535 0, arrivalTime := 1 }])).states.get? 1 = some s ∧
      (trackerAfter (seqRun [7, 32775, 7] ++
        [{ packet := plainPacket 2 65535 0, arrivalTime := 1 }])).stats 1 = .ok (some st) ∧
      StreamInvariant (seqRun [7, 32775, 7] ++
        [{ packet := plainPacket 2 65535 0, arrivalTime := 1 }]) 1 s st :=
  tracker_invariant (by decide) (by decide +kernel)

end Rtpkit

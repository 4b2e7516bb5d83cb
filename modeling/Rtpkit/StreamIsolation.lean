import Rtpkit.StreamInvariant
import Mathlib.Data.List.Nodup

namespace Rtpkit

/-- All that a tracker tells about one observed stream. -/
structure Reports (tracker : RtpStreamTracker) (ssrc : Int) (st : RtpStreamStats)
    (packets : List RtpPacket) : Prop where
  stats : tracker.stats ssrc = .ok (some st)
  allStats : ∃ all, tracker.allStats = .ok all ∧ all.lookup ssrc = some st
  orderedPackets : tracker.orderedPackets ssrc = .ok packets

theorem stats_congr {t t' : RtpStreamTracker} {ssrc : Int}
    (h : t.states.get? ssrc = t'.states.get? ssrc) : t.stats ssrc = t'.stats ssrc := by
  unfold RtpStreamTracker.stats
  rw [h]

theorem orderedPackets_congr {t t' : RtpStreamTracker} {ssrc : Int}
    (h : t.states.get? ssrc = t'.states.get? ssrc) :
    t.orderedPackets ssrc = t'.orderedPackets ssrc := by
  unfold RtpStreamTracker.orderedPackets
  rw [h]

/-- The snapshot of all streams has the entry that `stats` gives, and no other. -/
theorem lookup_allStats (run : List Arrival) (ssrc : Int) :
    ∃ all, (trackerAfter run).allStats = .ok all ∧
      (trackerAfter run).stats ssrc = .ok (all.lookup ssrc) := by
  obtain ⟨all, hall, hkeys, hentry⟩ := allStats_trackerAfter run
  refine ⟨all, hall, ?_⟩
  cases hfound : all.lookup ssrc with
  | none =>
    rw [OrderedDict.lookup_eq_none_iff, hkeys, mem_ssrcs_iff, not_not] at hfound
    exact stats_eq_none hfound
  | some st =>
    have hnodup : (all.map Prod.fst).Nodup := by
      rw [hkeys]
      exact (trackerAfter run).states.nodup_keys
    exact hentry _ ((OrderedDict.lookup_eq_some_iff_mem hnodup).mp hfound)

/-- Runs with one subsequence of a stream cannot be told apart on that stream. -/
theorem get?_congr {run other : List Arrival} {ssrc : Int}
    (h : arrivalsOf ssrc other = arrivalsOf ssrc run) :
    (trackerAfter other).states.get? ssrc = (trackerAfter run).states.get? ssrc := by
  rw [get?_trackerAfter, get?_trackerAfter, h]

theorem lookup_allStats_congr {run other : List Arrival} {ssrc : Int}
    (h : arrivalsOf ssrc other = arrivalsOf ssrc run) :
    ∃ all all', (trackerAfter other).allStats = .ok all ∧ (trackerAfter run).allStats = .ok all' ∧
      all.lookup ssrc = all'.lookup ssrc := by
  obtain ⟨all, hall, hstats⟩ := lookup_allStats other ssrc
  obtain ⟨all', hall', hstats'⟩ := lookup_allStats run ssrc
  refine ⟨all, all', hall, hall', ?_⟩
  rw [stats_congr (get?_congr h), hstats'] at hstats
  exact (Except.ok.inj hstats).symm

theorem exists_reports {run : List Arrival} {ssrc : Int}
    (h : ssrc ∈ (trackerAfter run).ssrcs) :
    ∃ st packets, Reports (trackerAfter run) ssrc st packets := by
  obtain ⟨st, hst, -⟩ := exists_stats run ssrc (mem_ssrcs_iff.mp h)
  obtain ⟨es, -, -, hordered⟩ := exists_orderedPackets run ssrc
  obtain ⟨all, hall, hlookup⟩ := lookup_allStats run ssrc
  rw [hst] at hlookup
  exact ⟨st, es.map Prod.snd, hst, ⟨all, hall, (Except.ok.inj hlookup).symm⟩, hordered⟩

theorem Reports.congr {run other : List Arrival} {ssrc : Int} {st : RtpStreamStats}
    {packets : List RtpPacket} (h : Reports (trackerAfter run) ssrc st packets)
    (hsame : arrivalsOf ssrc other = arrivalsOf ssrc run) :
    Reports (trackerAfter other) ssrc st packets := by
  have hstate := get?_congr hsame
  obtain ⟨all, all', hall, hall', hlookup⟩ := lookup_allStats_congr hsame
  obtain ⟨found, hfound, hst⟩ := h.allStats
  rw [hall'] at hfound
  cases hfound
  constructor
  case stats => rw [stats_congr hstate, h.stats]
  case allStats => exact ⟨all, hall, hlookup.trans hst⟩
  case orderedPackets => rw [orderedPackets_congr hstate, h.orderedPackets]

theorem arrivalsOf_arrivalsOf (ssrc : Int) (run : List Arrival) :
    arrivalsOf ssrc (arrivalsOf ssrc run) = arrivalsOf ssrc run :=
  arrivalsOf_eq_self fun a ha => by simpa using List.of_mem_filter ha

theorem mem_ssrcs_iff_observed {run : List Arrival} {ssrc : Int} :
    ssrc ∈ (trackerAfter run).ssrcs ↔ ∃ a ∈ run, a.packet.ssrc = ssrc := by
  rw [mem_ssrcs_iff, Ne, arrivalsOf, List.filter_eq_nil_iff]
  simp

/-- The streams are listed as their first packets arrived. -/
theorem ssrcs_pairwise (run : List Arrival) :
    (trackerAfter run).ssrcs.Pairwise fun s t =>
      (run.map fun a => a.packet.ssrc).idxOf s < (run.map fun a => a.packet.ssrc).idxOf t := by
  induction run using List.reverseRecOn with
  | nil => exact List.Pairwise.nil
  | append_singleton run a ih =>
    have hseen : ∀ s ∈ (trackerAfter run).ssrcs, s ∈ run.map fun b => b.packet.ssrc := by
      intro s hs
      exact List.mem_map.mpr (mem_ssrcs_iff_observed.mp hs)
    have hkept : (trackerAfter run).ssrcs.Pairwise fun s t =>
        ((run ++ [a]).map fun b => b.packet.ssrc).idxOf s <
          ((run ++ [a]).map fun b => b.packet.ssrc).idxOf t := by
      refine ih.imp_of_mem fun {s t} hs ht hlt => ?_
      rw [List.map_append, List.idxOf_append_of_mem (hseen s hs),
        List.idxOf_append_of_mem (hseen t ht)]
      exact hlt
    rw [ssrcs_concat]
    split
    next => exact hkept
    next hnew =>
      refine List.pairwise_append.mpr ⟨hkept, List.pairwise_singleton _ _, ?_⟩
      intro s hs t ht
      rw [List.mem_singleton.mp ht, List.map_append, List.idxOf_append_of_mem (hseen s hs)]
      have hfresh : a.packet.ssrc ∉ run.map fun b => b.packet.ssrc := by
        intro hmem
        exact hnew (mem_ssrcs_iff_observed.mpr (List.mem_map.mp hmem))
      rw [List.idxOf_append_of_notMem hfresh]
      have hlt := List.idxOf_lt_length_of_mem (hseen s hs)
      omega

/-- No stream learns of another: what is told of a stream depends on its own arrivals. -/
theorem streams_isolated (run : List Arrival) :
    (∀ ssrc ∈ (trackerAfter run).ssrcs, ∃ st packets,
      Reports (trackerAfter run) ssrc st packets ∧
      Reports (trackerAfter (arrivalsOf ssrc run)) ssrc st packets) ∧
    (∀ other, (∀ ssrc, arrivalsOf ssrc other = arrivalsOf ssrc run) → ∀ ssrc,
      (trackerAfter other).stats ssrc = (trackerAfter run).stats ssrc ∧
      (trackerAfter other).orderedPackets ssrc = (trackerAfter run).orderedPackets ssrc ∧
      ∃ all all', (trackerAfter other).allStats = .ok all ∧
        (trackerAfter run).allStats = .ok all' ∧ all.lookup ssrc = all'.lookup ssrc) ∧
    (trackerAfter run).ssrcs.Nodup ∧
    (∀ ssrc, ssrc ∈ (trackerAfter run).ssrcs ↔ ∃ a ∈ run, a.packet.ssrc = ssrc) ∧
    (trackerAfter run).ssrcs.Pairwise (fun s t =>
      (run.map fun a => a.packet.ssrc).idxOf s < (run.map fun a => a.packet.ssrc).idxOf t) := by
  refine ⟨?_, ?_, (trackerAfter run).states.nodup_keys, fun ssrc => mem_ssrcs_iff_observed,
    ssrcs_pairwise run⟩
  · intro ssrc hobserved
    obtain ⟨st, packets, hreports⟩ := exists_reports hobserved
    exact ⟨st, packets, hreports, hreports.congr (arrivalsOf_arrivalsOf ssrc run)⟩
  · intro other hsame ssrc
    have hstate := get?_congr (hsame ssrc)
    exact ⟨stats_congr hstate, orderedPackets_congr hstate, lookup_allStats_congr (hsame ssrc)⟩

theorem streams_isolated_mixed :
    (trackerAfter [⟨plainPacket 1 5 0, 0, 8000⟩, ⟨plainPacket 2 9 0, 0, 8000⟩]).stats 1 =
      (trackerAfter [⟨plainPacket 2 9 0, 0, 8000⟩, ⟨plainPacket 1 5 0, 0, 8000⟩]).stats 1 := by
  refine ((streams_isolated _).2.1 _ (fun ssrc => ?_) 1).1
  by_cases h1 : 1 = ssrc
  · simp [arrivalsOf, plainPacket, ← h1]
  · simp [arrivalsOf, List.filter_cons, plainPacket, h1]

end Rtpkit

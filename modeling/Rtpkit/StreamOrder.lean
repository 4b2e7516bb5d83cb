import Rtpkit.StreamRun

namespace Rtpkit

/-- The packets come back in the order of any strictly increasing list of the retained
entries. -/
theorem StreamState.orderedPackets_eq {s : StreamState} {es : List (Int × RtpPacket)}
    (hs : es.Pairwise fun a b => a.1 < b.1)
    (hm : ∀ e, e ∈ es ↔ s.packets.get? e.1 = some e.2) :
    s.orderedPackets = .ok (es.map Prod.snd) := by
  have hkeys : s.packets.sortedKeys = es.map Prod.fst :=
    s.packets.sortedKeys_eq (List.pairwise_map.mpr hs) fun _ => s.packets.mem_keys_iff_of_entries hm
  unfold StreamState.orderedPackets
  rw [hkeys, Outcome.mapM_eq_ok, List.forall₂_map_left_iff, List.forall₂_map_right_iff,
    List.forall₂_same]
  intro e he
  unfold StreamState.packetAt
  rw [(hm e).mp he]

theorem orderedPackets_trackerAfter {run : List Arrival} {ssrc : Int} {s : StreamState}
    (h : (trackerAfter run).states.get? ssrc = some s) :
    (trackerAfter run).orderedPackets ssrc = s.orderedPackets := by
  unfold RtpStreamTracker.orderedPackets
  rw [h]

/-- A strictly increasing list of the first packet of each number is the order of the
packets. -/
theorem orderedPackets_eq_of_sorted {run : List Arrival} {ssrc : Int}
    {es : List (Int × RtpPacket)} (hs : es.Pairwise fun a b => a.1 < b.1)
    (hm : ∀ e, e ∈ es ↔ (numberedPackets (arrivalsOf ssrc run)).lookup e.1 = some e.2) :
    (trackerAfter run).orderedPackets ssrc = .ok (es.map Prod.snd) := by
  by_cases hne : arrivalsOf ssrc run = []
  · have hnil : es = [] := by
      rw [List.eq_nil_iff_forall_not_mem]
      intro e he
      have hfound := (hm e).mp he
      rw [hne] at hfound
      simp [numberedPackets, extendedSeqs] at hfound
    have hnone := get?_trackerAfter run ssrc
    rw [hne] at hnone
    unfold RtpStreamTracker.orderedPackets
    rw [hnone, hnil]
    rfl
  · obtain ⟨s, hstate, htracks⟩ := exists_state hne
    rw [orderedPackets_trackerAfter hstate]
    refine StreamState.orderedPackets_eq hs fun e => ?_
    rw [hm, htracks.packets]

theorem exists_orderedPackets (run : List Arrival) (ssrc : Int) :
    ∃ es : List (Int × RtpPacket), es.Pairwise (fun a b => a.1 < b.1) ∧
      (∀ e, e ∈ es ↔ (numberedPackets (arrivalsOf ssrc run)).lookup e.1 = some e.2) ∧
      (trackerAfter run).orderedPackets ssrc = .ok (es.map Prod.snd) := by
  have htracks := tracks_getD_streamAfter (arrivalsOf ssrc run) 0
  obtain ⟨es, hs, hm⟩ := OrderedDict.exists_sorted_entries
    ((streamAfter (arrivalsOf ssrc run)).getD { payloadType := 0 }).packets
  have hlog : ∀ e, e ∈ es ↔ (numberedPackets (arrivalsOf ssrc run)).lookup e.1 = some e.2 :=
    fun e => by rw [hm, htracks.packets]
  exact ⟨es, hs, hlog, orderedPackets_eq_of_sorted hs hlog⟩

/-- Numbers that are all moved alike leave the order of the packets as it is. -/
theorem orderedPackets_relabel {run run' : List Arrival} {ssrc k : Int}
    {f : RtpPacket → RtpPacket}
    (h : numberedPackets (arrivalsOf ssrc run') =
      (numberedPackets (arrivalsOf ssrc run)).map (Prod.map (· + k) f)) :
    (trackerAfter run').orderedPackets ssrc =
      List.map f <$> (trackerAfter run).orderedPackets ssrc := by
  obtain ⟨es, hs, hm, hordered⟩ := exists_orderedPackets run ssrc
  have hadd : Function.Injective fun n : Int => n + k := fun m n hmn => by
    have hmn : m + k = n + k := hmn
    omega
  have hmoved : ∀ e, e ∈ es.map (Prod.map (· + k) f) ↔
      (numberedPackets (arrivalsOf ssrc run')).lookup e.1 = some e.2 := by
    rintro ⟨n, q⟩
    obtain ⟨j, rfl⟩ : ∃ j, n = j + k := ⟨n - k, by omega⟩
    rw [h, OrderedDict.lookup_map hadd _ _ j, Option.map_eq_some_iff, List.mem_map]
    constructor
    · rintro ⟨⟨i, p⟩, he, heq⟩
      obtain ⟨hi, hq⟩ := Prod.mk.inj heq
      cases hadd hi
      exact ⟨p, (hm (j, p)).mp he, hq⟩
    · rintro ⟨p, hp, rfl⟩
      exact ⟨(j, p), (hm (j, p)).mpr hp, rfl⟩
  have hpairwise : (es.map (Prod.map (· + k) f)).Pairwise fun a b => a.1 < b.1 :=
    List.pairwise_map.mpr (hs.imp fun hlt => by simpa using hlt)
  rw [orderedPackets_eq_of_sorted hpairwise hmoved, hordered]
  simp [Function.comp_def]

end Rtpkit

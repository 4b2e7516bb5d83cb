import Rtpkit.StreamOrder

namespace Rtpkit

/-- How far a packet stands after the start of a circular window. -/
def windowOffset (start : Int) (p : RtpPacket) : Int := (p.sequenceNumber - start) % 65536

theorem windowOffset_nonneg (start : Int) (p : RtpPacket) : 0 ≤ windowOffset start p :=
  Int.emod_nonneg _ (by decide)

/-- The number of a packet in a window whose start has the given extended number. -/
theorem windowOffset_emod {start base : Int} {p : RtpPacket}
    (hseq : 0 ≤ p.sequenceNumber ∧ p.sequenceNumber < 65536)
    (hbase : base % 65536 = start % 65536) :
    (base + windowOffset start p) % 65536 = p.sequenceNumber := by
  unfold windowOffset
  omega

/-- In a window of half the cycle the first arrival fixes the numbers of all packets. -/
theorem extendedSeqs_of_window {run : List Arrival} {a : Arrival} (start : Int)
    (hseq : ∀ b ∈ a :: run, 0 ≤ b.packet.sequenceNumber ∧ b.packet.sequenceNumber < 65536)
    (hwindow : ∀ b ∈ a :: run, windowOffset start b.packet < 32768) :
    extendedSeqs (a :: run) = (a :: run).map fun b =>
      a.packet.sequenceNumber - windowOffset start a.packet + windowOffset start b.packet := by
  have hbase : (a.packet.sequenceNumber - windowOffset start a.packet) % 65536 =
      start % 65536 := by
    unfold windowOffset
    omega
  generalize hb : a.packet.sequenceNumber - windowOffset start a.packet = base at hbase ⊢
  have hres : (a :: run).map (fun b => b.packet.sequenceNumber) =
      ((a :: run).map fun b => base + windowOffset start b.packet).map (· % 65536) := by
    rw [List.map_map]
    exact List.map_congr_left fun b hb => (windowOffset_emod (hseq b hb) hbase).symm
  have hmem : ∀ n ∈ (a :: run).map fun b => base + windowOffset start b.packet,
      base ≤ n ∧ n < base + 32768 := by
    intro n hn
    obtain ⟨b, hb, rfl⟩ := List.mem_map.mp hn
    have h0 := windowOffset_nonneg start b.packet
    have h1 := hwindow b hb
    omega
  unfold extendedSeqs
  rw [hres]
  apply SerialNumber.unwrapAll_of_near 32768
  · intro n hn
    have ha := hseq a (by simp)
    have hn : base + windowOffset start a.packet = n := Option.some.inj hn
    omega
  · intro i n m hn hm
    have hn' := hmem n (List.mem_of_getElem? hn)
    have hm' := hmem m (List.mem_of_mem_take (List.max?_eq_some_iff.mp hm).1)
    rw [abs_lt]
    omega

theorem numberedPackets_of_seqs (number : RtpPacket → Int) {run : List Arrival}
    (h : extendedSeqs run = run.map fun b => number b.packet) :
    numberedPackets run = (run.map Arrival.packet).map fun p => (number p, p) := by
  unfold numberedPackets
  rw [h, List.map_map, List.zip_map']
  rfl

/-- Whatever the order of arrival, the packets of half a cycle come back in circular order. -/
theorem reorder_recovers {ssrc start : Int} {window : List RtpPacket} {run : List Arrival}
    (hssrc : ∀ p ∈ window, p.ssrc = ssrc)
    (hseq : ∀ p ∈ window, 0 ≤ p.sequenceNumber ∧ p.sequenceNumber < 65536)
    (hwindow : ∀ p ∈ window, windowOffset start p < 32768)
    (hsorted : window.Pairwise fun p q => windowOffset start p < windowOffset start q)
    (hperm : (run.map Arrival.packet).Perm window) :
    (trackerAfter run).orderedPackets ssrc = .ok window ∧
    (window ≠ [] → ∃ st, (trackerAfter run).stats ssrc = .ok (some st) ∧
      st.duplicateCount = 0) := by
  have hpacket : ∀ b ∈ run, b.packet ∈ window := fun b hb =>
    hperm.mem_iff.mp (List.mem_map_of_mem hb)
  have hown : arrivalsOf ssrc run = run :=
    arrivalsOf_eq_self fun b hb => hssrc _ (hpacket b hb)
  cases run with
  | nil =>
    cases List.nil_perm.mp hperm
    exact ⟨rfl, fun h => absurd rfl h⟩
  | cons a run =>
    have hseqs := extendedSeqs_of_window start (fun b hb => hseq _ (hpacket b hb))
      (fun b hb => hwindow _ (hpacket b hb))
    generalize a.packet.sequenceNumber - windowOffset start a.packet = base at hseqs
    have hnumbered := numberedPackets_of_seqs (fun p => base + windowOffset start p) hseqs
    have hkeys : (window.map fun p => base + windowOffset start p).Pairwise (· < ·) :=
      List.pairwise_map.mpr (hsorted.imp fun h => by omega)
    have hnodup : ((numberedPackets (a :: run)).map Prod.fst).Nodup := by
      rw [hnumbered, List.map_map]
      exact ((hperm.map _).nodup_iff).mpr (hkeys.imp fun h => ne_of_lt h)
    refine ⟨?_, fun _ => ?_⟩
    · have hout : (window.map fun p => (base + windowOffset start p, p)).map Prod.snd = window := by
        rw [List.map_map]
        exact List.map_id window
      rw [← hout]
      refine orderedPackets_eq_of_sorted ?_ fun e => ?_
      · exact List.pairwise_map.mpr (hsorted.imp fun h => by dsimp only; omega)
      · rw [hown, OrderedDict.lookup_eq_some_iff_mem hnodup, hnumbered]
        exact ((hperm.map _).mem_iff).symm
    · obtain ⟨st, hst, hsum⟩ := exists_stats (a :: run) ssrc (by simp [hown])
      refine ⟨st, hst, ?_⟩
      rw [hown] at hsum
      rw [map_fst_numberedPackets] at hnodup
      rw [hsum.duplicateCount, ArrivalOrder.repeats_eq_zero hnodup]

theorem reorder_recovers_rollover :
    (trackerAfter (seqRun [1, 65535, 0, 65534])).orderedPackets 1 =
      .ok [plainPacket 1 65534 0, plainPacket 1 65535 0, plainPacket 1 0 0, plainPacket 1 1 0] :=
  (@reorder_recovers 1 65534 _ _ (by decide) (by decide) (by decide) (by decide)
    (by decide)).1

end Rtpkit

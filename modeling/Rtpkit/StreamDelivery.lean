import Rtpkit.StreamShift
import Rtpkit.StreamUnwrap

namespace Rtpkit

open ArrivalOrder (repeats late missing below)

/-- The tracker recovers the counter of a sender exactly when the first number is within the first
cycle and each later one is where the comparisons with the largest number so far put its residue. -/
theorem tracker_unwraps_iff {run : List Arrival} {ssrc : Int} {ns : List Int}
    (hseq : (arrivalsOf ssrc run).map (fun a => a.packet.sequenceNumber) =
      ns.map (· % 65536)) :
    observedSeqs ssrc run = ns ↔
      (∀ first, ns.head? = some first → 0 ≤ first ∧ first < 65536) ∧
      ∀ i n, ns[i]? = some n → ∀ m, (ns.take i).max? = some m →
        SerialNumber.Recovered 32768 m n := by
  rw [observedSeqs_eq, extendedSeqs, hseq]
  exact SerialNumber.unwrapAll_eq_iff (by decide)

/-- At half a cycle the comparisons choose by where the largest number stands in its cycle. -/
theorem tracker_unwraps_iff_half :
    observedSeqs 1 (seqRun [0, 32768, 0]) = [0, 32768, 0] ∧
      observedSeqs 1 (seqRun [40000, 7232]) ≠ [40000, 72768] := by
  have hrecovered : ∀ i < 3, ∀ n ∈ ([0, 32768, 0] : List Int)[i]?,
      ∀ m ∈ (([0, 32768, 0] : List Int).take i).max?, SerialNumber.Recovered 32768 m n := by
    decide +kernel
  refine ⟨?_, fun h => ?_⟩
  · have hseq : (arrivalsOf 1 (seqRun [0, 32768, 0])).map (fun a => a.packet.sequenceNumber) =
        [0, 32768, 0].map (· % 65536) := by
      decide +kernel
    refine (tracker_unwraps_iff hseq).mpr ⟨by simp, ?_⟩
    exact fun i n hn m hm => hrecovered i (List.getElem?_eq_some_iff.mp hn).1 n hn m hm
  · have hseq : (arrivalsOf 1 (seqRun [40000, 7232])).map (fun a => a.packet.sequenceNumber) =
        [40000, 72768].map (· % 65536) := by
      decide +kernel
    have hfar := ((tracker_unwraps_iff hseq).mp h).2 1 72768 rfl 40000 rfl
    exact absurd hfar (by decide)

/-- A stream as its sender numbers it, with a counter that never wraps. -/
structure SentStream where
  ssrc : Int
  packet : Int → RtpPacket
  ssrc_packet : ∀ n, (packet n).ssrc = ssrc
  sequenceNumber_packet : ∀ n, (packet n).sequenceNumber = n % 65536

namespace SentStream

/-- A run in which the packets of the stream arrive with these numbers, one after the other, among
packets of other streams: some may be lost, doubled or late. -/
def Delivers (sent : SentStream) (run : List Arrival) (ns : List Int) : Prop :=
  (arrivalsOf sent.ssrc run).map Arrival.packet = ns.map sent.packet

variable {sent : SentStream} {run : List Arrival} {ns : List Int}

/-- The tracker numbers the packets as the sender does, up to whole cycles. -/
theorem Delivers.exists_numbered (h : sent.Delivers run ns)
    (hnear : SerialNumber.StaysNear 32768 ns) :
    ∃ k, extendedSeqs (arrivalsOf sent.ssrc run) = ns.map (· + k) ∧
      numberedPackets (arrivalsOf sent.ssrc run) =
        ns.map fun n => (n + k, sent.packet n) := by
  have hres : (arrivalsOf sent.ssrc run).map (fun a => a.packet.sequenceNumber) =
      ns.map (· % 65536) := by
    have hmap := congrArg (List.map RtpPacket.sequenceNumber) h
    rw [List.map_map, List.map_map] at hmap
    exact hmap.trans (List.map_congr_left fun n _ => sent.sequenceNumber_packet n)
  obtain ⟨k, hk⟩ := SerialNumber.unwrapAll_of_staysNear (by decide) hnear
  have hseqs : extendedSeqs (arrivalsOf sent.ssrc run) = ns.map (· + k) := by
    rw [extendedSeqs, hres]
    exact hk
  refine ⟨k, hseqs, ?_⟩
  rw [numberedPackets, hseqs, h, List.zip_map']

theorem Delivers.orderedPackets_eq (h : sent.Delivers run ns)
    (hnear : SerialNumber.StaysNear 32768 ns) {order : List Int}
    (hsorted : order.Pairwise (· < ·)) (hset : ∀ n, n ∈ order ↔ n ∈ ns) :
    (trackerAfter run).orderedPackets sent.ssrc = .ok (order.map sent.packet) := by
  obtain ⟨k, -, hnumbered⟩ := h.exists_numbered hnear
  have hout : (order.map fun n => (n + k, sent.packet n)).map Prod.snd = order.map sent.packet := by
    rw [List.map_map]
    rfl
  rw [← hout]
  refine orderedPackets_eq_of_sorted ?_ fun e => ?_
  · exact List.pairwise_map.mpr (hsorted.imp fun hlt => Int.add_lt_add_right hlt k)
  · -- a number that arrives again brings the same packet
    have hagree : ∀ e ∈ numberedPackets (arrivalsOf sent.ssrc run),
        ∀ e' ∈ numberedPackets (arrivalsOf sent.ssrc run), e.1 = e'.1 → e.2 = e'.2 := by
      rw [hnumbered]
      simp only [List.forall_mem_map]
      intro m _ n _ hmn
      rw [add_right_cancel hmn]
    rw [OrderedDict.lookup_eq_some_iff_of_agree hagree, hnumbered, List.mem_map, List.mem_map]
    simp only [hset]

/-- The statistics are those of the sender's numbers, wherever the counter stands at first. -/
theorem Delivers.exists_stats (h : sent.Delivers run ns)
    (hnear : SerialNumber.StaysNear 32768 ns) {first highest : Int} (hfirst : ns.head? = some first)
    (hhighest : ns.max? = some highest) :
    ∃ st, (trackerAfter run).stats sent.ssrc = .ok (some st) ∧ st.packetCount = ns.length ∧
      st.duplicateCount = repeats ns ∧ st.outOfOrderCount = late ns ∧
      st.expectedCount = highest - first + 1 ∧
      st.lostCount = max 0 ((missing ns first highest).card - (below ns first).card : Int) := by
  obtain ⟨k, hseqs, -⟩ := h.exists_numbered hnear
  have hmono : StrictMono fun n : Int => n + k := fun m n hmn => Int.add_lt_add_right hmn k
  have hlen : (arrivalsOf sent.ssrc run).length = ns.length := by
    rw [← length_extendedSeqs, hseqs, List.length_map]
  have hne : arrivalsOf sent.ssrc run ≠ [] := by
    intro hnil
    rw [hnil, List.length_nil] at hlen
    rw [List.length_eq_zero_iff.mp hlen.symm] at hfirst
    cases hfirst
  obtain ⟨st, hst, hsum⟩ := Rtpkit.exists_stats run sent.ssrc hne
  have hhead := hsum.first
  have hmax := hsum.highest
  rw [hseqs, List.head?_map, hfirst] at hhead
  rw [hseqs, SerialNumber.max?_map_add, hhighest] at hmax
  have hhead : first + k = st.firstExtendedSequence := Option.some.inj hhead
  have hmax : highest + k = st.highestExtendedSequence := Option.some.inj hmax
  have hexpected := hsum.expectedCount
  refine ⟨st, hst, by rw [hsum.packetCount, hlen], ?_, ?_, by omega, ?_⟩
  · rw [hsum.duplicateCount, hseqs, ArrivalOrder.repeats_map hmono.injective]
  · rw [hsum.outOfOrderCount, hseqs, ArrivalOrder.late_map hmono]
  · have hcard := ArrivalOrder.card_missing first (List.max?_eq_some_iff.mp hhighest).2
    have hmoved := ArrivalOrder.repeats_add_card (ns.map (· + k))
    have hunique := ArrivalOrder.repeats_add_card ns
    rw [ArrivalOrder.repeats_map hmono.injective, List.length_map] at hmoved
    rw [Int.card_Icc] at hcard
    rw [hsum.lostCount, hseqs]
    omega

end SentStream

/-- Whatever a network loses, doubles or delays by less than half a cycle, and whatever else
arrives, the packets of a stream come back as they were sent, however often the counter has
wrapped and wherever the reception begins; the statistics are those of the sender's numbers, where
what came from before the first packet is set off against what is lost. -/
theorem delivery_recovered (sent : SentStream) {run : List Arrival} {ns : List Int}
    (hdelivers : sent.Delivers run ns) (hnear : SerialNumber.StaysNear 32768 ns) :
    (∀ order : List Int, order.Pairwise (· < ·) → (∀ n, n ∈ order ↔ n ∈ ns) →
      (trackerAfter run).orderedPackets sent.ssrc = .ok (order.map sent.packet)) ∧
    ∀ first highest, ns.head? = some first → ns.max? = some highest →
      ∃ st, (trackerAfter run).stats sent.ssrc = .ok (some st) ∧ st.packetCount = ns.length ∧
        st.duplicateCount = repeats ns ∧ st.outOfOrderCount = late ns ∧
        st.expectedCount = highest - first + 1 ∧
        st.lostCount = max 0 ((missing ns first highest).card - (below ns first).card : Int) :=
  ⟨fun _ => hdelivers.orderedPackets_eq hnear, fun _ _ => hdelivers.exists_stats hnear⟩

/-- The stream of plain packets of one sender. -/
def plainStream (ssrc : Int) : SentStream where
  ssrc := ssrc
  packet n := plainPacket ssrc (n % 65536) 0
  ssrc_packet _ := rfl
  sequenceNumber_packet _ := rfl

/-- A receiver that joins in the second cycle, at the end of which a packet is late, one comes
twice and one is lost. -/
theorem delivery_recovered_second_cycle :
    (trackerAfter (seqRun [65534, 0, 65535, 0, 2])).orderedPackets 1 =
        .ok ([131070, 131071, 131072, 131074].map (plainStream 1).packet) ∧
      ∃ st, (trackerAfter (seqRun [65534, 0, 65535, 0, 2])).stats 1 = .ok (some st) ∧
        st.duplicateCount = 1 ∧ st.outOfOrderCount = 1 ∧ st.lostCount = 1 := by
  have hnear : ∀ i < 5, ∀ n ∈ ([131070, 131072, 131071, 131072, 131074] : List Int)[i]?,
      ∀ m ∈ (([131070, 131072, 131071, 131072, 131074] : List Int).take i).max?,
        |n - m| < 32768 := by
    decide +kernel
  have hdelivers : (plainStream 1).Delivers (seqRun [65534, 0, 65535, 0, 2])
      [131070, 131072, 131071, 131072, 131074] := by
    unfold SentStream.Delivers
    decide +kernel
  obtain ⟨hordered, hstats⟩ := delivery_recovered (plainStream 1) hdelivers
    fun i n m hn hm => hnear i (List.getElem?_eq_some_iff.mp hn).1 n hn m hm
  refine ⟨hordered [131070, 131071, 131072, 131074] (by decide) (fun n => ?_), ?_⟩
  · simp only [List.mem_cons, List.not_mem_nil, or_false]
    tauto
  · obtain ⟨st, hst, -, hdup, hlate, -, hlost⟩ := hstats 131070 131074 rfl (by decide)
    exact ⟨st, hst, hdup.trans (by decide), hlate.trans (by decide), hlost.trans (by decide +kernel)⟩

section Oblivious

variable {f : RtpPacket → RtpPacket} {g : Arrival → Arrival} {run : List Arrival}

theorem arrivalsOf_map (hssrc : ∀ a, (g a).packet.ssrc = a.packet.ssrc) (ssrc : Int) :
    arrivalsOf ssrc (run.map g) = (arrivalsOf ssrc run).map g := by
  unfold arrivalsOf
  rw [List.filter_map]
  exact congrArg (List.map g) (List.filter_congr fun a _ => by simp [hssrc])

theorem extendedSeqs_map (hseq : ∀ a, (g a).packet.sequenceNumber = a.packet.sequenceNumber) :
    extendedSeqs (run.map g) = extendedSeqs run := by
  unfold extendedSeqs
  rw [List.map_map]
  exact congrArg _ (List.map_congr_left fun a _ => hseq a)

theorem ssrcs_map (hssrc : ∀ a, (g a).packet.ssrc = a.packet.ssrc) :
    (trackerAfter (run.map g)).ssrcs = (trackerAfter run).ssrcs := by
  induction run using List.reverseRecOn with
  | nil => rfl
  | append_singleton run a ih =>
    rw [List.map_append, List.map_singleton, ssrcs_concat, ssrcs_concat, ih, hssrc]

/-- The counters are those of the extended numbers. -/
theorem Summarises.counters_congr {run' : List Arrival} {st st' : RtpStreamStats}
    (h : Summarises run st) (h' : Summarises run' st')
    (hseqs : extendedSeqs run' = extendedSeqs run) : st'.counters = st.counters := by
  have hlen : run'.length = run.length := by
    rw [← length_extendedSeqs, hseqs, length_extendedSeqs]
  have hfirst := h'.first
  have hhighest := h'.highest
  rw [hseqs, h.first] at hfirst
  rw [hseqs, h.highest] at hhighest
  have hexpected : st'.expectedCount = st.expectedCount := by
    rw [h'.expectedCount, h.expectedCount, Option.some.inj hfirst, Option.some.inj hhighest]
  unfold RtpStreamStats.counters
  rw [h'.packetCount, h.packetCount, hlen, h'.lostCount, h.lostCount, hexpected, hseqs,
    h'.outOfOrderCount, h.outOfOrderCount, h'.duplicateCount, h.duplicateCount, hseqs]

/-- What is done to the packets before they are ordered can as well be done after. -/
theorem orderedPackets_map (hpacket : ∀ a, (g a).packet = f a.packet)
    (hssrc : ∀ p, (f p).ssrc = p.ssrc) (hseq : ∀ p, (f p).sequenceNumber = p.sequenceNumber)
    (run : List Arrival) (ssrc : Int) :
    (trackerAfter (run.map g)).orderedPackets ssrc =
      List.map f <$> (trackerAfter run).orderedPackets ssrc := by
  have hpackets : ((arrivalsOf ssrc run).map g).map Arrival.packet =
      ((arrivalsOf ssrc run).map Arrival.packet).map f := by
    rw [List.map_map, List.map_map]
    exact List.map_congr_left fun a _ => hpacket a
  apply orderedPackets_relabel (k := 0)
  rw [arrivalsOf_map (fun a => by rw [hpacket, hssrc]), numberedPackets,
    extendedSeqs_map (fun a => by rw [hpacket, hseq]), hpackets, List.zip_map_right]
  simp [numberedPackets]

/-- The order of the packets and the counters come from the SSRCs and the sequence numbers alone:
what is done to the packets before they are ordered can as well be done after. -/
theorem ordering_oblivious (hpacket : ∀ a, (g a).packet = f a.packet)
    (hssrc : ∀ p, (f p).ssrc = p.ssrc) (hseq : ∀ p, (f p).sequenceNumber = p.sequenceNumber)
    (run : List Arrival) :
    (trackerAfter (run.map g)).ssrcs = (trackerAfter run).ssrcs ∧
    ∀ ssrc, (trackerAfter (run.map g)).orderedPackets ssrc =
        List.map f <$> (trackerAfter run).orderedPackets ssrc ∧
      Option.map RtpStreamStats.counters <$> (trackerAfter (run.map g)).stats ssrc =
        Option.map RtpStreamStats.counters <$> (trackerAfter run).stats ssrc := by
  have hown : ∀ a, (g a).packet.ssrc = a.packet.ssrc := fun a => by rw [hpacket, hssrc]
  have hnumber : ∀ a, (g a).packet.sequenceNumber = a.packet.sequenceNumber :=
    fun a => by rw [hpacket, hseq]
  refine ⟨ssrcs_map hown, fun ssrc => ⟨orderedPackets_map hpacket hssrc hseq run ssrc, ?_⟩⟩
  by_cases hne : arrivalsOf ssrc run = []
  · rw [stats_eq_none hne, stats_eq_none (by rw [arrivalsOf_map hown, hne]; rfl)]
  · obtain ⟨st, hst, hsum⟩ := exists_stats run ssrc hne
    obtain ⟨st', hst', hsum'⟩ := exists_stats (run.map g) ssrc
      (by rw [arrivalsOf_map hown]; simpa using hne)
    rw [arrivalsOf_map hown] at hsum'
    have hcounters := hsum.counters_congr hsum' (extendedSeqs_map hnumber)
    rw [hst, hst']
    simp [hcounters]

end Oblivious

/-- Packets that lose their payloads and arrive later come in the same order. -/
theorem ordering_oblivious_emptied :
    (trackerAfter ((seqRun [3, 1, 2]).map fun a =>
        { a with packet := { a.packet with payload := [] }, arrivalTime := 9 })).orderedPackets 1 =
      List.map (fun p => { p with payload := [] }) <$>
        (trackerAfter (seqRun [3, 1, 2])).orderedPackets 1 :=
  ((ordering_oblivious (f := fun p => { p with payload := [] }) (fun _ => rfl) (fun _ => rfl)
    (fun _ => rfl) (seqRun [3, 1, 2])).2 1).1

end Rtpkit

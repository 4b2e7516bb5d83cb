import Rtpkit.StreamOrder

namespace Rtpkit

open ArrivalOrder (repeats late)
open SerialNumber (SameSide)

def RtpPacket.shiftSequence (c : Int) (p : RtpPacket) : RtpPacket :=
  { p with sequenceNumber := (p.sequenceNumber + c) % 65536 }

def Arrival.shiftSequence (c : Int) (a : Arrival) : Arrival :=
  { a with packet := a.packet.shiftSequence c }

/-- The same stream from a sender whose initial sequence number differs by `c`. -/
def shiftRun (c : Int) (run : List Arrival) : List Arrival := run.map (Arrival.shiftSequence c)

def RtpStreamStats.counters (st : RtpStreamStats) : Nat × Int × Int × Nat × Nat :=
  (st.packetCount, st.expectedCount, st.lostCount, st.outOfOrderCount, st.duplicateCount)

/-- The two senders look alike in the counters and in the order of the packets. -/
structure SameView (c ssrc : Int) (run : List Arrival) : Prop where
  counters : Option.map RtpStreamStats.counters <$> (trackerAfter (shiftRun c run)).stats ssrc =
    Option.map RtpStreamStats.counters <$> (trackerAfter run).stats ssrc
  ordered : (trackerAfter (shiftRun c run)).orderedPackets ssrc =
    List.map (RtpPacket.shiftSequence c) <$> (trackerAfter run).orderedPackets ssrc

/-- The extended numbers of the two runs differ by one constant of the residue of `c`. -/
def ShiftedBy (c k : Int) (run : List Arrival) : Prop :=
  k % 65536 = c % 65536 ∧ extendedSeqs (shiftRun c run) = (extendedSeqs run).map (· + k)

theorem arrivalsOf_shiftRun (c ssrc : Int) (run : List Arrival) :
    arrivalsOf ssrc (shiftRun c run) = shiftRun c (arrivalsOf ssrc run) := by
  unfold arrivalsOf shiftRun
  rw [List.filter_map]
  rfl

theorem shiftRun_concat (c : Int) (run : List Arrival) (a : Arrival) :
    shiftRun c (run ++ [a]) = shiftRun c run ++ [a.shiftSequence c] := by
  simp [shiftRun]

theorem numberedPackets_shiftRun {c k : Int} {run : List Arrival} (h : ShiftedBy c k run) :
    numberedPackets (shiftRun c run) =
      (numberedPackets run).map (Prod.map (· + k) (RtpPacket.shiftSequence c)) := by
  have hpackets : (shiftRun c run).map Arrival.packet =
      (run.map Arrival.packet).map (RtpPacket.shiftSequence c) := by
    unfold shiftRun
    rw [List.map_map, List.map_map]
    rfl
  unfold numberedPackets
  rw [h.2, hpackets, List.zip_map]

theorem orderedPackets_shiftRun {c k ssrc : Int} {run : List Arrival}
    (h : ShiftedBy c k (arrivalsOf ssrc run)) :
    (trackerAfter (shiftRun c run)).orderedPackets ssrc =
      List.map (RtpPacket.shiftSequence c) <$> (trackerAfter run).orderedPackets ssrc := by
  apply orderedPackets_relabel
  rw [arrivalsOf_shiftRun, numberedPackets_shiftRun h]

theorem Summarises.counters_eq {c k : Int} {run : List Arrival} {st st' : RtpStreamStats}
    (hk : ShiftedBy c k run) (h : Summarises run st) (h' : Summarises (shiftRun c run) st') :
    st'.counters = st.counters := by
  have hmono : StrictMono fun n : Int => n + k := fun m n hmn => Int.add_lt_add_right hmn k
  have hfirst := h'.first
  have hhighest := h'.highest
  have hdup := h'.duplicateCount
  have hlate := h'.outOfOrderCount
  have hlost := h'.lostCount
  have hexpected := h'.expectedCount
  rw [hk.2, List.head?_map, h.first, Option.map_some] at hfirst
  rw [hk.2, SerialNumber.max?_map_add, h.highest, Option.map_some] at hhighest
  rw [hk.2, ArrivalOrder.repeats_map hmono.injective, ← h.duplicateCount] at hdup
  rw [hk.2, ArrivalOrder.late_map hmono, ← h.outOfOrderCount] at hlate
  have hsame : st'.expectedCount = st.expectedCount := by
    rw [hexpected, h.expectedCount, ← Option.some.inj hfirst, ← Option.some.inj hhighest]
    omega
  have hcount : st'.packetCount = st.packetCount := by
    rw [h'.packetCount, h.packetCount, shiftRun, List.length_map]
  have hunique := h.unique_count
  have hunique' := h'.unique_count
  have hlost' : st'.lostCount = st.lostCount := by
    rw [hlost, h.lostCount]
    omega
  unfold RtpStreamStats.counters
  rw [hcount, hsame, hlost', hlate, hdup]

theorem sameView_of_shiftedBy {c k ssrc : Int} {run : List Arrival}
    (h : ShiftedBy c k (arrivalsOf ssrc run)) : SameView c ssrc run where
  counters := by
    by_cases hne : arrivalsOf ssrc run = []
    · rw [stats_eq_none hne, stats_eq_none (by rw [arrivalsOf_shiftRun, hne]; rfl)]
    · obtain ⟨st, hst, hsum⟩ := exists_stats run ssrc hne
      obtain ⟨st', hst', hsum'⟩ := exists_stats (shiftRun c run) ssrc
        (by rw [arrivalsOf_shiftRun]; simpa [shiftRun] using hne)
      rw [arrivalsOf_shiftRun] at hsum'
      have hcounters := Summarises.counters_eq h hsum hsum'
      rw [hst, hst']
      simp [hcounters]
  ordered := orderedPackets_shiftRun h

end Rtpkit

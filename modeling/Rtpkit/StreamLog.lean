import Rtpkit.ArrivalOrder
import Rtpkit.StreamStep
import Mathlib.Data.Int.Interval

namespace Rtpkit

open ArrivalOrder (repeats late)

/-- The extended numbers of a run of one stream, from its residues alone. -/
def extendedSeqs (run : List Arrival) : List Int :=
  SerialNumber.unwrapAll 32768 (run.map fun a => a.packet.sequenceNumber)

def numberedPackets (run : List Arrival) : List (Int × RtpPacket) :=
  (extendedSeqs run).zip (run.map Arrival.packet)

theorem extendedSeqs_concat (run : List Arrival) (a : Arrival) :
    extendedSeqs (run ++ [a]) = extendedSeqs run ++
      [SerialNumber.extend 32768 (extendedSeqs run).max? a.packet.sequenceNumber] := by
  unfold extendedSeqs
  rw [List.map_append, List.map_singleton, SerialNumber.unwrapAll_concat]

@[simp] theorem length_extendedSeqs (run : List Arrival) :
    (extendedSeqs run).length = run.length := by simp [extendedSeqs]

theorem extendedSeqs_ne_nil {run : List Arrival} (h : run ≠ []) : extendedSeqs run ≠ [] := by
  intro hnil
  have hlen := length_extendedSeqs run
  rw [hnil] at hlen
  exact h (List.length_eq_zero_iff.mp hlen.symm)

theorem numberedPackets_concat (run : List Arrival) (a : Arrival) :
    numberedPackets (run ++ [a]) = numberedPackets run ++
      [(SerialNumber.extend 32768 (extendedSeqs run).max? a.packet.sequenceNumber,
        a.packet)] := by
  unfold numberedPackets
  rw [extendedSeqs_concat, List.map_append, List.zip_append (by simp)]
  rfl

theorem map_fst_numberedPackets (run : List Arrival) :
    (numberedPackets run).map Prod.fst = extendedSeqs run :=
  List.map_fst_zip (by simp)

/-- The state holds the statistics of exactly the numbered packets of a run. -/
structure Tracks (run : List Arrival) (s : StreamState) : Prop where
  packetCount : s.packetCount = run.length
  duplicateCount : s.duplicateCount = repeats (extendedSeqs run)
  outOfOrderCount : s.outOfOrderCount = late (extendedSeqs run)
  firstExtSeq : s.firstExtSeq = (extendedSeqs run).head?
  highestExtSeq : s.highestExtSeq = (extendedSeqs run).max?
  seenExtSeqs : s.seenExtSeqs = (extendedSeqs run).toFinset
  packets : ∀ k, s.packets.get? k = (numberedPackets run).lookup k

theorem tracks_fresh (payloadType : Int) : Tracks [] { payloadType := payloadType } where
  packetCount := rfl
  duplicateCount := rfl
  outOfOrderCount := rfl
  firstExtSeq := rfl
  highestExtSeq := rfl
  seenExtSeqs := rfl
  packets := fun _ => rfl

theorem Tracks.extend_eq {run : List Arrival} {s : StreamState} (h : Tracks run s) (seq : Int) :
    s.extend seq = SerialNumber.extend 32768 (extendedSeqs run).max? seq := by
  rw [StreamState.extend_eq, h.highestExtSeq]

theorem Tracks.extendedSeqs_step {run : List Arrival} {s : StreamState} (h : Tracks run s)
    (a : Arrival) :
    extendedSeqs (run ++ [a]) = extendedSeqs run ++ [s.extend a.packet.sequenceNumber] := by
  rw [extendedSeqs_concat, h.extend_eq]

theorem Tracks.numberedPackets_step {run : List Arrival} {s : StreamState} (h : Tracks run s)
    (a : Arrival) : numberedPackets (run ++ [a]) =
      numberedPackets run ++ [(s.extend a.packet.sequenceNumber, a.packet)] := by
  rw [numberedPackets_concat, h.extend_eq]

/-- A number is below the largest exactly when it is below some number. -/
theorem any_max?_iff {ns : List Int} {n : Int} :
    ns.max?.any (n < ·) = true ↔ ∃ m ∈ ns, n < m := by
  cases hmax : ns.max? with
  | none =>
    cases List.max?_eq_none_iff.mp hmax
    simp
  | some m =>
    obtain ⟨hm, hle⟩ := List.max?_eq_some_iff.mp hmax
    simp only [Option.any_some, decide_eq_true_eq]
    constructor
    · intro h
      exact ⟨m, hm, h⟩
    · rintro ⟨k, hk, h⟩
      exact h.trans_le (hle k hk)

theorem Tracks.step {run : List Arrival} {s : StreamState} (h : Tracks run s) (a : Arrival) :
    Tracks (run ++ [a]) (s.step a) := by
  have hseqs := h.extendedSeqs_step a
  have hnumbered := h.numberedPackets_step a
  unfold StreamState.step
  rw [StreamState.observe_eq]
  generalize s.extend a.packet.sequenceNumber = n at hseqs hnumbered
  have hmem : n ∈ s.seenExtSeqs ↔ n ∈ extendedSeqs run := by simp [h.seenExtSeqs]
  constructor
  case packetCount => simp [h.packetCount]
  case duplicateCount =>
    rw [hseqs, ArrivalOrder.repeats_concat, ← h.duplicateCount]
    simp only [hmem]
  case outOfOrderCount =>
    rw [hseqs, ArrivalOrder.late_concat, ← h.outOfOrderCount]
    simp only [hmem, h.highestExtSeq, any_max?_iff]
  case firstExtSeq =>
    rw [hseqs, List.head?_append, ← h.firstExtSeq]
    cases s.firstExtSeq with
    | none => rfl
    | some first => rfl
  case highestExtSeq => rw [hseqs, SerialNumber.max?_concat, ← h.highestExtSeq]
  case seenExtSeqs => rw [hseqs, ArrivalOrder.toFinset_concat, ← h.seenExtSeqs]
  case packets =>
    intro k
    rw [hnumbered]
    exact OrderedDict.get?_keepFirst h.packets (by rw [map_fst_numberedPackets, hmem]) _ k

end Rtpkit

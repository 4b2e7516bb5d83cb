import Rtpkit.SerialNumber
import Rtpkit.StreamTracker
import Mathlib.Data.Finset.Basic

namespace Rtpkit

namespace StreamState

theorem extend_eq (s : StreamState) (seq : Int) :
    s.extend seq = SerialNumber.extend 32768 s.highestExtSeq seq := by
  unfold extend SerialNumber.extend
  cases s.highestExtSeq with
  | none => rfl
  | some highest => rfl

theorem updateJitter_eq (s : StreamState) (rtpTimestamp : Int) (arrivalTime : ℚ)
    (clockRate : Int) :
    s.updateJitter rtpTimestamp arrivalTime clockRate =
      let transit := arrivalTime * clockRate - rtpTimestamp
      { s with
        jitter := s.prevTransit.elim s.jitter fun prev =>
          s.jitter + (|transit - prev| - s.jitter) / 16
        prevTransit := some transit } := by
  unfold updateJitter
  cases s.prevTransit with
  | none => rfl
  | some prev => rfl

/-- What one observation does to each field. -/
theorem observe_eq (s : StreamState) (p : RtpPacket) (arrivalTime : ℚ) (clockRate : Int) :
    s.observe p arrivalTime clockRate =
      let n := s.extend p.sequenceNumber
      let transit := arrivalTime * clockRate - p.timestamp
      { payloadType := p.payloadType
        packetCount := s.packetCount + 1
        duplicateCount := s.duplicateCount + if n ∈ s.seenExtSeqs then 1 else 0
        outOfOrderCount := s.outOfOrderCount +
          if n ∉ s.seenExtSeqs ∧ s.highestExtSeq.any (n < ·) then 1 else 0
        firstExtSeq := some (s.firstExtSeq.getD n)
        highestExtSeq := some (s.highestExtSeq.elim n (max · n))
        jitter := s.prevTransit.elim s.jitter fun prev =>
          s.jitter + (|transit - prev| - s.jitter) / 16
        prevTransit := some transit
        seenExtSeqs := insert n s.seenExtSeqs
        packets := if n ∈ s.seenExtSeqs then s.packets else s.packets.set n p } := by
  have hext : ∀ c t, StreamState.extend { s with packetCount := c, payloadType := t }
      p.sequenceNumber = s.extend p.sequenceNumber := fun _ _ => rfl
  unfold observe
  simp only [hext, updateJitter_eq]
  clear hext
  generalize s.extend p.sequenceNumber = n
  obtain ⟨t, c, d, o, first, highest, j, prev, seen, packets⟩ := s
  dsimp only
  -- the order of the number and the highest one decides the last two updates
  cases highest with
  | none =>
    by_cases hseen : n ∈ seen
    · cases first <;> simp [hseen]
    · cases first <;> simp [hseen]
  | some h =>
    rcases lt_trichotomy n h with hlt | rfl | hgt
    · by_cases hseen : n ∈ seen
      · cases first <;> simp [hseen, hlt.le, hlt.not_gt]
      · cases first <;> simp [hseen, hlt, hlt.le, hlt.not_gt]
    · by_cases hseen : n ∈ seen
      · cases first <;> simp [hseen]
      · cases first <;> simp [hseen]
    · by_cases hseen : n ∈ seen
      · cases first <;> simp [hseen, hgt, hgt.le]
      · cases first <;> simp [hseen, hgt, hgt.le, hgt.not_gt]

theorem snapshot_eq {s : StreamState} {first highest : Int} (hfirst : s.firstExtSeq = some first)
    (hhighest : s.highestExtSeq = some highest) (ssrc : Int) :
    s.snapshot ssrc = .ok {
      ssrc := ssrc
      payloadType := s.payloadType
      packetCount := s.packetCount
      expectedCount := highest - first + 1
      lostCount := max 0 (highest - first + 1 - ((s.packetCount : Int) - s.duplicateCount))
      outOfOrderCount := s.outOfOrderCount
      duplicateCount := s.duplicateCount
      firstExtendedSequence := first
      highestExtendedSequence := highest
      jitter := s.jitter } := by
  unfold snapshot
  rw [hfirst, hhighest]

end StreamState

end Rtpkit

import Mathlib.Data.Rat.Defs
import Mathlib.Algebra.Order.Ring.Rat

namespace Rtpkit

/-- A snapshot of one stream; the estimates are exact rationals. -/
structure RtpStreamStats where
  ssrc : Int
  payloadType : Int
  packetCount : Nat
  expectedCount : Int
  lostCount : Int
  outOfOrderCount : Nat
  duplicateCount : Nat
  firstExtendedSequence : Int
  highestExtendedSequence : Int
  jitter : ℚ
  deriving DecidableEq, Repr

def RtpStreamStats.fractionLost (stats : RtpStreamStats) : ℚ :=
  if 0 < stats.expectedCount then stats.lostCount / stats.expectedCount else 0

end Rtpkit

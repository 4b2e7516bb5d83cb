import Rtpkit.Heuristics
import Mathlib.Data.Finset.Card

namespace Rtpkit

def defaultMinPackets : Int := 4

def defaultSeqJumpThreshold : Int := 1000

structure FlowClassification where
  packetsObserved : Nat
  packetsParsed : Nat
  ssrcConsistent : Bool
  sequencePlausible : Bool
  sequenceProgressing : Bool
  isLikelyRtp : Bool
  deriving DecidableEq, Repr

/-- `_wrapped_delta`, modulo 2^16. -/
def wrappedDelta (a b : Int) : Int :=
  let delta := (b - a) % 2 ^ 16
  if 2 ^ 15 < delta then delta - 2 ^ 16 else delta

structure RtpFlowClassifier where
  minPackets : Int
  seqJumpThreshold : Int
  packetsObserved : Nat
  packetsParsed : Nat
  ssrc : Option Int
  ssrcConsistent : Bool
  lastSeq : Option Int
  sequencePlausible : Bool
  distinctSeqs : Finset Int
  deriving DecidableEq

namespace RtpFlowClassifier

def new (minPackets : Int := defaultMinPackets)
    (seqJumpThreshold : Int := defaultSeqJumpThreshold) : RtpFlowClassifier where
  minPackets := minPackets
  seqJumpThreshold := seqJumpThreshold
  packetsObserved := 0
  packetsParsed := 0
  ssrc := none
  ssrcConsistent := true
  lastSeq := none
  sequencePlausible := true
  distinctSeqs := ∅

def observeSsrc (c : RtpFlowClassifier) (ssrc : Int) : RtpFlowClassifier :=
  match c.ssrc with
  | none => { c with ssrc := some ssrc }
  | some first => if ssrc ≠ first then { c with ssrcConsistent := false } else c

def observeSequence (c : RtpFlowClassifier) (seq : Int) : RtpFlowClassifier :=
  let jumped := match c.lastSeq with
    | some last => c.seqJumpThreshold < (wrappedDelta last seq).natAbs
    | none => false
  { c with
    sequencePlausible := c.sequencePlausible && !jumped
    lastSeq := some seq
    distinctSeqs := insert seq c.distinctSeqs }

/-- The rest of `observe` for a packet that counts as evidence. -/
def addEvidence (c : RtpFlowClassifier) (packet : RtpPacket) : RtpFlowClassifier :=
  let c := { c with packetsParsed := c.packetsParsed + 1 }
  (c.observeSsrc packet.ssrc).observeSequence packet.sequenceNumber

def observe (c : RtpFlowClassifier) (data : Bytes) : Except Error RtpFlowClassifier :=
  let c := { c with packetsObserved := c.packetsObserved + 1 }
  match parseRtp data with
  | .error e => if e.isRtpError then .ok c else .error e
  | .ok packet =>
    if packet.payloadType ∈ rtcpCollisionRange then .ok c else .ok (c.addEvidence packet)

def classify (c : RtpFlowClassifier) : FlowClassification :=
  let sequenceProgressing : Bool := 1 < c.distinctSeqs.card
  { packetsObserved := c.packetsObserved
    packetsParsed := c.packetsParsed
    ssrcConsistent := c.ssrcConsistent
    sequencePlausible := c.sequencePlausible
    sequenceProgressing := sequenceProgressing
    isLikelyRtp := c.minPackets ≤ c.packetsParsed && c.ssrcConsistent && c.sequencePlausible &&
      sequenceProgressing }

end RtpFlowClassifier

end Rtpkit

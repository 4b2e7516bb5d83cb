import Rtpkit.OrderedDict
import Rtpkit.RtpModel
import Rtpkit.StreamModel
import Mathlib.Data.Finset.Insert

namespace Rtpkit

def seqMod : Int := 65536

def seqModHalf : Int := 32768

structure StreamState where
  payloadType : Int
  packetCount : Nat := 0
  duplicateCount : Nat := 0
  outOfOrderCount : Nat := 0
  firstExtSeq : Option Int := none
  highestExtSeq : Option Int := none
  jitter : ℚ := 0
  prevTransit : Option ℚ := none
  seenExtSeqs : Finset Int := ∅
  packets : OrderedDict Int RtpPacket := OrderedDict.empty

namespace StreamState

def extend (self : StreamState) (seq : Int) : Int :=
  match self.highestExtSeq with
  | none => seq
  | some highestExtSeq =>
    -- the masks 0xFFFF and ~0xFFFF, which also floor a negative number
    let prevSeq := highestExtSeq % seqMod
    let prevCycle := highestExtSeq - highestExtSeq % seqMod
    let delta := seq - prevSeq
    let delta :=
      if delta > seqModHalf then delta - seqMod
      else if delta < -seqModHalf then delta + seqMod
      else delta
    prevCycle + prevSeq + delta

def updateJitter (self : StreamState) (rtpTimestamp : Int) (arrivalTime : ℚ) (clockRate : Int) :
    StreamState :=
  let transit := arrivalTime * clockRate - rtpTimestamp
  let self :=
    match self.prevTransit with
    | none => self
    | some prevTransit =>
      { self with jitter := self.jitter + (|transit - prevTransit| - self.jitter) / 16 }
  { self with prevTransit := some transit }

def observe (self : StreamState) (packet : RtpPacket) (arrivalTime : ℚ) (clockRate : Int) :
    StreamState :=
  let self := { self with packetCount := self.packetCount + 1, payloadType := packet.payloadType }
  let extSeq := self.extend packet.sequenceNumber
  let self :=
    match self.firstExtSeq with
    | none => { self with firstExtSeq := some extSeq }
    | some _ => self
  let self :=
    if extSeq ∈ self.seenExtSeqs then
      { self with duplicateCount := self.duplicateCount + 1 }
    else
      let self := { self with
        seenExtSeqs := insert extSeq self.seenExtSeqs
        packets := self.packets.set extSeq packet }
      match self.highestExtSeq with
      | none => self
      | some highestExtSeq =>
        if extSeq < highestExtSeq then { self with outOfOrderCount := self.outOfOrderCount + 1 }
        else self
  let self :=
    match self.highestExtSeq with
    | none => { self with highestExtSeq := some extSeq }
    | some highestExtSeq =>
      if extSeq > highestExtSeq then { self with highestExtSeq := some extSeq } else self
  self.updateJitter packet.timestamp arrivalTime clockRate

def snapshot (self : StreamState) (ssrc : Int) : Except Error RtpStreamStats :=
  match self.firstExtSeq, self.highestExtSeq with
  | some firstExtSeq, some highestExtSeq =>
    let expected := highestExtSeq - firstExtSeq + 1
    let received := (self.packetCount : Int) - self.duplicateCount
    .ok {
      ssrc := ssrc
      payloadType := self.payloadType
      packetCount := self.packetCount
      expectedCount := expected
      lostCount := max 0 (expected - received)
      outOfOrderCount := self.outOfOrderCount
      duplicateCount := self.duplicateCount
      firstExtendedSequence := firstExtSeq
      highestExtendedSequence := highestExtSeq
      jitter := self.jitter }
  | _, _ => .error .assertionError

/-- The subscript of the retained packets. -/
def packetAt (self : StreamState) (seq : Int) : Except Error RtpPacket :=
  match self.packets.get? seq with
  | none => .error .keyError
  | some packet => .ok packet

def orderedPackets (self : StreamState) : Except Error (List RtpPacket) :=
  self.packets.sortedKeys.mapM self.packetAt

end StreamState

structure RtpStreamTracker where
  states : OrderedDict Int StreamState := OrderedDict.empty

namespace RtpStreamTracker

/-- The state that a packet is folded into. -/
def stateFor (self : RtpStreamTracker) (packet : RtpPacket) : StreamState :=
  match self.states.get? packet.ssrc with
  | none => { payloadType := packet.payloadType }
  | some state => state

def observe (self : RtpStreamTracker) (packet : RtpPacket) (arrivalTime : ℚ)
    (clockRate : Int := 8000) : RtpStreamTracker :=
  { states := self.states.set packet.ssrc
      ((self.stateFor packet).observe packet arrivalTime clockRate) }

def ssrcs (self : RtpStreamTracker) : List Int := self.states.keys

def stats (self : RtpStreamTracker) (ssrc : Int) : Except Error (Option RtpStreamStats) :=
  match self.states.get? ssrc with
  | none => .ok none
  | some state => some <$> state.snapshot ssrc

def allStats (self : RtpStreamTracker) : Except Error (List (Int × RtpStreamStats)) :=
  self.states.entries.mapM fun entry => (entry.1, ·) <$> entry.2.snapshot entry.1

def orderedPackets (self : RtpStreamTracker) (ssrc : Int) : Except Error (List RtpPacket) :=
  match self.states.get? ssrc with
  | none => .ok []
  | some state => state.orderedPackets

end RtpStreamTracker

/-- The arguments of one call of `observe`. -/
structure Arrival where
  packet : RtpPacket
  arrivalTime : ℚ
  clockRate : Int := 8000
  deriving DecidableEq, Repr

def StreamState.step (self : StreamState) (a : Arrival) : StreamState :=
  self.observe a.packet a.arrivalTime a.clockRate

def RtpStreamTracker.step (self : RtpStreamTracker) (a : Arrival) : RtpStreamTracker :=
  self.observe a.packet a.arrivalTime a.clockRate

/-- A fresh tracker after a run of calls of `observe`. -/
def trackerAfter (run : List Arrival) : RtpStreamTracker := run.foldl RtpStreamTracker.step {}

/-- A packet without payload, with the fields that the tracker reads. -/
def plainPacket (ssrc sequenceNumber timestamp : Int) : RtpPacket where
  version := 2
  padding := false
  extension := false
  marker := false
  payloadType := 8
  sequenceNumber := sequenceNumber
  timestamp := timestamp
  ssrc := ssrc
  csrc := []
  headerExtension := none
  payload := []
  paddingSize := 0
  raw := []

/-- One stream of plain packets that arrive together. -/
def seqRun (seqs : List Int) : List Arrival :=
  seqs.map fun seq => { packet := plainPacket 1 seq 0, arrivalTime := 0 }

/-- The extended number that observing the packet will give it. -/
def RtpStreamTracker.extSeqOf (self : RtpStreamTracker) (packet : RtpPacket) : Int :=
  (self.stateFor packet).extend packet.sequenceNumber

end Rtpkit

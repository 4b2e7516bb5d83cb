import Rtpkit.Alignment
import Rtpkit.Ascii
import Rtpkit.RtcpModel
import Rtpkit.Struct

namespace Rtpkit

open Outcome Alignment

def maxCount : Nat := 31

def u8 : Int := 0xFF

def i24Min : Int := -2 ^ 23

def i24Max : Int := 2 ^ 23 - 1

/-- `(-n) % 4`, the number of bytes that align a length to 4. -/
def alignPad (n : Nat) : Nat := (-(n : Int) % 4).toNat

def zeros (n : Nat) : Bytes := List.replicate n 0

/-- The bytes up to the next multiple of 4, and no whole word of them. -/
theorem alignPad_eq (n : Nat) : alignPad n = fill 4 n := by
  apply Fills.eq_fill
  constructor
  · simp only [alignPad]
    omega
  · simp only [alignPad]
    omega

@[simp] theorem length_zeros (n : Nat) : (zeros n).length = n := List.length_replicate

def requireCount (count : Nat) (field : String) : Except Error Unit :=
  require (count ≤ maxCount)
    (.rtcpBuildError field s!"at most {maxCount} entries (5-bit field), got {count}")

/-- The word that holds `fraction_lost` above the 24 bits of `cumulative_lost`. -/
def ReportBlock.flcl (rb : ReportBlock) : Nat :=
  ((rb.fractionLost % 0x100).toNat <<< 24) ||| (rb.cumulativeLost % 0x1000000).toNat

def serializeReportBlock (rb : ReportBlock) : Except Error Bytes := do
  require (0 ≤ rb.fractionLost ∧ rb.fractionLost ≤ u8)
    (.rtcpBuildError "fraction_lost" s!"must fit in 8 bits, got {rb.fractionLost}")
  require (i24Min ≤ rb.cumulativeLost ∧ rb.cumulativeLost ≤ i24Max)
    (.rtcpBuildError "cumulative_lost" s!"must fit in a signed 24-bit field, got {rb.cumulativeLost}")
  let head ← structPack [(.I, rb.ssrc), (.I, rb.flcl), (.I, rb.extendedHighestSequence),
    (.I, rb.jitter), (.I, rb.lastSr)]
  let tail ← structPack [(.I, rb.delaySinceLastSr)]
  pure (head ++ tail)

/-- The count or subtype field, the packet type and the body of one packet. -/
abbrev Serialized := Int × RtcpPacketType × Bytes

def serializeSr (pkt : SenderReport) : Except Error Serialized := do
  requireCount pkt.reportBlocks.length "report_blocks"
  let info := pkt.senderInfo
  let body ← structPack [(.I, pkt.ssrc), (.I, info.ntpSeconds), (.I, info.ntpFraction),
    (.I, info.rtpTimestamp), (.I, info.packetCount), (.I, info.octetCount)]
  let blocks ← pkt.reportBlocks.mapM serializeReportBlock
  pure (pkt.reportBlocks.length, .sr, body ++ blocks.flatten)

def serializeRr (pkt : ReceiverReport) : Except Error Serialized := do
  requireCount pkt.reportBlocks.length "report_blocks"
  let body ← structPack [(.I, pkt.ssrc)]
  let blocks ← pkt.reportBlocks.mapM serializeReportBlock
  pure (pkt.reportBlocks.length, .rr, body ++ blocks.flatten)

def serializeSdesItem (item : SdesItem) : Except Error Bytes := do
  require (1 ≤ item.type ∧ item.type ≤ u8)
    (.rtcpBuildError "type" s!"must be 1-255 (0 is reserved), got {item.type}")
  require ((item.text.length : Int) ≤ u8)
    (.rtcpBuildError "text" s!"at most 255 bytes, got {item.text.length}")
  let head ← structPack [(.B, item.type), (.B, item.text.length)]
  pure (head ++ item.text)

def serializeSdesChunk (chunk : SdesChunk) : Except Error Bytes := do
  let items ← chunk.items.mapM serializeSdesItem
  let head ← structPack [(.I, chunk.ssrc)]
  let raw := head ++ items.flatten ++ [0]
  pure (raw ++ zeros (alignPad raw.length))

def serializeSdes (pkt : SourceDescription) : Except Error Serialized := do
  requireCount pkt.chunks.length "chunks"
  let chunks ← pkt.chunks.mapM serializeSdesChunk
  pure (pkt.chunks.length, .sdes, chunks.flatten)

def serializeReason : Option Bytes → Except Error Bytes
  | none => pure []
  | some reason => do
    require ((reason.length : Int) ≤ u8)
      (.rtcpBuildError "reason" s!"at most 255 bytes, got {reason.length}")
    let head ← structPack [(.B, reason.length)]
    pure (head ++ reason)

def serializeBye (pkt : Goodbye) : Except Error Serialized := do
  requireCount pkt.sources.length "sources"
  let body ← structPack (pkt.sources.map fun source => (.I, source))
  let reason ← serializeReason pkt.reason
  pure (pkt.sources.length, .bye, body ++ reason)

def serializeApp (pkt : ApplicationDefined) : Except Error Serialized := do
  require (0 ≤ pkt.subtype ∧ pkt.subtype ≤ maxCount)
    (.rtcpBuildError "subtype" s!"must fit in 5 bits (0-31), got {pkt.subtype}")
  match encodeAscii pkt.name with
  | none => .error (.rtcpBuildError "name" s!"must be ASCII, got {strRepr pkt.name}")
  | some name => do
    require (name.length = 4)
      (.rtcpBuildError "name" s!"must be exactly 4 ASCII characters, got {strRepr pkt.name}")
    let body ← structPack [(.I, pkt.ssrc)]
    pure (pkt.subtype, .app, body ++ name ++ pkt.data)

def serialize : RtcpPacket → Except Error Serialized
  | .senderReport pkt => serializeSr pkt
  | .receiverReport pkt => serializeRr pkt
  | .sourceDescription pkt => serializeSdes pkt
  | .goodbye pkt => serializeBye pkt
  | .applicationDefined pkt => serializeApp pkt

/-- The `except struct.error` clause of `_build_one`. -/
def convertStructError {α : Type} (className : String) : Except Error α → Except Error α
  | .error (.structError detail) => .error (.rtcpBuildError className detail)
  | result => result

def buildOne (pkt : RtcpPacket) : Except Error Bytes := do
  let (count, packetType, body) ← convertStructError pkt.className (serialize pkt)
  let padding := pkt.paddingSize
  require (0 ≤ padding ∧ padding ≤ u8)
    (.rtcpBuildError "padding_size" s!"must be 0-255, got {padding}")
  require (padding % 4 = 0)
    (.rtcpBuildError "padding_size" s!"must be a multiple of 4, got {padding}")
  let body := body ++ zeros (alignPad body.length)
  let body := if padding ≠ 0 then body ++ (zeros (padding - 1).toNat ++ [UInt8.ofNat padding.toNat])
    else body
  let byte0 : Nat := (2 <<< 6) ||| ((if padding ≠ 0 then 1 else 0) <<< 5) ||| (count % 0x20).toNat
  let header ← structPack [(.B, byte0), (.B, packetType.value), (.H, (body.length / 4 : Nat))]
  pure (header ++ body)

def buildRtcp (packets : List RtcpPacket) : Except Error Bytes := do
  let parts ← packets.mapM buildOne
  pure parts.flatten

end Rtpkit

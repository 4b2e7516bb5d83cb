import Rtpkit.Ascii
import Rtpkit.RtcpBuilder
import Rtpkit.RtcpModel
import Rtpkit.Struct

namespace Rtpkit

open Outcome Chunk

def headerSize : Nat := 4

def reportBlockSize : Nat := 24

def parseReportBlock (data : Bytes) (off : Nat) : Except Error ReportBlock := do
  let ssrc ← unpackFrom .I data off
  let fractionAndLost ← unpackFrom .I data (off + 4)
  let fractionLost := (fractionAndLost >>> 24) &&& 0xFF
  let cumulativeLost := fractionAndLost &&& 0xFFFFFF
  -- the 24-bit count is sign-extended
  let signed : Int := if cumulativeLost &&& 0x800000 ≠ 0 then (cumulativeLost : Int) - 0x1000000
    else cumulativeLost
  let extHighest ← unpackFrom .I data (off + 8)
  let jitter ← unpackFrom .I data (off + 12)
  let lastSr ← unpackFrom .I data (off + 16)
  let dlsr ← unpackFrom .I data (off + 20)
  pure {
    ssrc := ssrc
    fractionLost := fractionLost
    cumulativeLost := signed
    extendedHighestSequence := extHighest
    jitter := jitter
    lastSr := lastSr
    delaySinceLastSr := dlsr }

def parseReportBlocks (data : Bytes) (rc : Nat) : Except Error (List ReportBlock) := do
  let needed := rc * reportBlockSize
  require (needed ≤ data.length) (.rtcpMalformedPacket
    s!"need {needed} bytes for {rc} report block(s), got {data.length}")
  (List.range rc).mapM fun i => parseReportBlock data (i * reportBlockSize)

def parseSr (content : Bytes) (rc : Nat) (paddingSize : Int) : Except Error SenderReport := do
  require (24 ≤ content.length) (.rtcpMalformedPacket
    s!"SR needs at least 24 bytes (SSRC + sender info), got {content.length}")
  let ssrc ← unpackFrom .I content 0
  let ntpSec ← unpackFrom .I content 4
  let ntpFrac ← unpackFrom .I content 8
  let rtpTs ← unpackFrom .I content 12
  let pktCnt ← unpackFrom .I content 16
  let octCnt ← unpackFrom .I content 20
  let blocks ← parseReportBlocks (slice content 24 content.length) rc
  pure {
    ssrc := ssrc
    senderInfo := {
      ntpSeconds := ntpSec
      ntpFraction := ntpFrac
      rtpTimestamp := rtpTs
      packetCount := pktCnt
      octetCount := octCnt }
    reportBlocks := blocks
    paddingSize := paddingSize }

def parseRr (content : Bytes) (rc : Nat) (paddingSize : Int) : Except Error ReceiverReport := do
  require (4 ≤ content.length) (.rtcpMalformedPacket
    s!"RR needs at least 4 bytes (SSRC), got {content.length}")
  let ssrc ← unpackFrom .I content 0
  let blocks ← parseReportBlocks (slice content 4 content.length) rc
  pure { ssrc := ssrc, reportBlocks := blocks, paddingSize := paddingSize }

/-- The inner loop of `_parse_sdes`: the items from `pos` on and the position after their
null byte. -/
def parseSdesItems (content : Bytes) (pos : Nat) : Except Error (List SdesItem × Nat) :=
  if _h : content.length ≤ pos then
    .error (.rtcpMalformedPacket "SDES chunk missing null terminator")
  else do
    let itemType ← getByte content pos
    if itemType = 0 then pure ([], pos + 1)
    else do
      require (pos + 2 ≤ content.length) (.rtcpMalformedPacket "SDES item header truncated")
      let itemLen ← getByte content (pos + 1)
      let itemStart := pos + 2
      let itemEnd := itemStart + itemLen
      require (itemEnd ≤ content.length) (.rtcpMalformedPacket "SDES item data truncated")
      let (items, next) ← parseSdesItems content itemEnd
      pure ({ type := itemType, text := slice content itemStart itemEnd } :: items, next)
termination_by content.length - pos

/-- The outer loop of `_parse_sdes`, with `sc` chunks left to read. -/
def parseSdesChunks (content : Bytes) : Nat → Nat → Except Error (List SdesChunk)
  | 0, _ => pure []
  | sc + 1, chunkBegin => do
    require (chunkBegin + 4 ≤ content.length)
      (.rtcpMalformedPacket "SDES chunk truncated (missing SSRC)")
    let ssrc ← unpackFrom .I content chunkBegin
    let (items, pos) ← parseSdesItems content (chunkBegin + 4)
    let pad := alignPad (pos - chunkBegin)
    require (pos + pad ≤ content.length) (.rtcpMalformedPacket "SDES chunk padding truncated")
    let chunks ← parseSdesChunks content sc (pos + pad)
    pure ({ ssrc := ssrc, items := items } :: chunks)

def parseSdes (content : Bytes) (sc : Nat) (paddingSize : Int) :
    Except Error SourceDescription := do
  let chunks ← parseSdesChunks content sc 0
  pure { chunks := chunks, paddingSize := paddingSize }

def parseReason (content : Bytes) (pos : Nat) : Except Error (Option Bytes) :=
  if pos < content.length then do
    let reasonLen ← getByte content pos
    let pos := pos + 1
    require (pos + reasonLen ≤ content.length) (.rtcpMalformedPacket "BYE reason text truncated")
    pure (some (slice content pos (pos + reasonLen)))
  else pure none

def parseBye (content : Bytes) (sc : Nat) (paddingSize : Int) : Except Error Goodbye := do
  let needed := sc * 4
  require (needed ≤ content.length) (.rtcpMalformedPacket
    s!"BYE needs {needed} bytes for {sc} source(s), got {content.length}")
  let sources ← unpackMany sc content 0
  let reason ← parseReason content needed
  pure { sources := sources, reason := reason, paddingSize := paddingSize }

def parseApp (content : Bytes) (subtype : Nat) (paddingSize : Int) :
    Except Error ApplicationDefined := do
  require (8 ≤ content.length) (.rtcpMalformedPacket
    s!"APP needs at least 8 bytes (SSRC + name), got {content.length}")
  let ssrc ← unpackFrom .I content 0
  pure {
    subtype := subtype
    ssrc := ssrc
    name := decodeAscii (slice content 4 8)
    data := slice content 8 content.length
    paddingSize := paddingSize }

def parseOne (packetType count : Nat) (content : Bytes) (paddingSize : Int) :
    Except Error RtcpPacket :=
  if packetType = RtcpPacketType.sr.value then
    .senderReport <$> parseSr content count paddingSize
  else if packetType = RtcpPacketType.rr.value then
    .receiverReport <$> parseRr content count paddingSize
  else if packetType = RtcpPacketType.sdes.value then
    .sourceDescription <$> parseSdes content count paddingSize
  else if packetType = RtcpPacketType.bye.value then
    .goodbye <$> parseBye content count paddingSize
  else if packetType = RtcpPacketType.app.value then
    .applicationDefined <$> parseApp content count paddingSize
  else .error (.rtcpMalformedPacket s!"unknown RTCP packet type {packetType}")

structure RtcpHeader where
  version : Nat
  paddingFlag : Bool
  count : Nat
  packetType : Nat
  lengthWords : Nat
  deriving DecidableEq, Repr

/-- `packet_len`, in bytes. -/
def RtcpHeader.packetLen (hdr : RtcpHeader) : Nat := (hdr.lengthWords + 1) * 4

def readHeader (data : Bytes) (offset : Nat) : Except Error RtcpHeader := do
  let firstByte ← getByte data offset
  let packetType ← getByte data (offset + 1)
  let lengthWords ← unpackFrom .H data (offset + 2)
  pure {
    version := (firstByte >>> 6) &&& 0x03
    paddingFlag := (firstByte >>> 5) &&& 0x01 ≠ 0
    count := firstByte &&& 0x1F
    packetType := packetType
    lengthWords := lengthWords }

/-- The `padding_size` of a packet body; the content ends that many bytes before the body. -/
def readPadding (strict paddingFlag : Bool) (body : Bytes) : Except Error Nat :=
  if paddingFlag then
    if body.length < 1 then
      if strict then .error (.rtcpMalformedPacket "padding flag set but packet body is empty")
      else pure 0
    else do
      let padCount ← getByte body (body.length - 1)
      if padCount = 0 ∨ body.length < padCount then
        if strict then .error (.rtcpMalformedPacket s!"invalid padding count {padCount}")
        else pure 0
      else pure padCount
  else pure 0

/-- The `except RtcpMalformedPacket` clause of the loop: lenient mode skips the packet. -/
def skipMalformed (strict : Bool) : Except Error RtcpPacket → Except Error (Option RtcpPacket)
  | .ok packet => .ok (some packet)
  | .error (.rtcpMalformedPacket detail) =>
    if strict then .error (.rtcpMalformedPacket detail) else .ok none
  | .error e => .error e

def parseBody (strict : Bool) (hdr : RtcpHeader) (body : Bytes) :
    Except Error (Option RtcpPacket) := do
  let paddingSize ← readPadding strict hdr.paddingFlag body
  let content := slice body 0 (body.length - paddingSize)
  skipMalformed strict (parseOne hdr.packetType hdr.count content paddingSize)

/-- The `while` loop of `_parse_compound`, from `offset` on. -/
def parseLoop (strict : Bool) (data : Bytes) (offset : Nat) : Except Error (List RtcpPacket) :=
  if _h : offset < data.length then
    let remaining := data.length - offset
    if remaining < headerSize then
      if strict then .error (.rtcpBufferTooShort headerSize remaining) else pure []
    else do
      let hdr ← readHeader data offset
      let packetEnd := offset + hdr.packetLen
      if hdr.version ≠ 2 ∧ strict then .error (.rtcpInvalidVersion hdr.version)
      else if data.length < packetEnd then
        if strict then .error (.rtcpLengthMismatch hdr.packetLen remaining) else pure []
      else do
        let packet ← parseBody strict hdr (slice data (offset + headerSize) packetEnd)
        let packets ← parseLoop strict data packetEnd
        pure (packet.toList ++ packets)
  else pure []
termination_by data.length - offset
decreasing_by simp only [RtcpHeader.packetLen]; omega

def parseCompound (strict : Bool) (data : Bytes) : Except Error (List RtcpPacket) := do
  require (headerSize ≤ data.length) (.rtcpBufferTooShort headerSize data.length)
  parseLoop strict data 0

def parseRtcp (data : Bytes) : Except Error (List RtcpPacket) := parseCompound true data

def parseRtcpLenient (data : Bytes) : Except Error (List RtcpPacket) := parseCompound false data

end Rtpkit

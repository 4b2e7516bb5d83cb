import Rtpkit.RtpModel
import Rtpkit.Struct

namespace Rtpkit

open Outcome Chunk

def fixedHeaderSize : Nat := 12

/-- The number of CSRC entries that are read; lenient mode takes those that fit. -/
def readCsrcCount (strict : Bool) (bufLen cc : Nat) : Except Error Nat :=
  let csrcEnd := fixedHeaderSize + cc * 4
  if bufLen < csrcEnd then
    if strict then .error (.rtpBufferTooShort csrcEnd bufLen)
    else pure ((bufLen - fixedHeaderSize) / 4)
  else pure cc

/-- The header extension, if one is read, and the offset at which the payload begins. -/
def readExtension (strict extensionFlag : Bool) (data : Bytes) (offset : Nat) :
    Except Error (Option HeaderExtension × Nat) :=
  if extensionFlag then
    let extHeaderEnd := offset + 4
    if data.length < extHeaderEnd then
      if strict then .error (.rtpExtensionError
        s!"Need {extHeaderEnd} bytes for extension header, got {data.length}")
      else pure (none, offset)
    else do
      let extProfile ← unpackFrom .H data offset
      let extWordLen ← unpackFrom .H data (offset + 2)
      let extDataLen := extWordLen * 4
      let extDataEnd := extHeaderEnd + extDataLen
      if data.length < extDataEnd then
        if strict then .error (.rtpExtensionError
          s!"Extension declares {extDataLen} bytes of data, but only {data.length - extHeaderEnd} available")
        else pure (none, offset)
      else pure (some {
        profile := extProfile
        length := extWordLen
        data := slice data extHeaderEnd extDataEnd }, extDataEnd)
  else pure (none, offset)

/-- The `padding_size`; the payload ends that many bytes before the buffer. -/
def readRtpPadding (strict paddingFlag : Bool) (data : Bytes) (offset : Nat) : Except Error Nat :=
  if paddingFlag then
    let available := data.length - offset
    if available < 1 then
      if strict then .error (.rtpPaddingError 0 available) else pure 0
    else do
      let padCount ← getByte data (data.length - 1)
      if padCount = 0 then
        if strict then .error (.rtpPaddingError 0 available) else pure 0
      else if available < padCount then
        if strict then .error (.rtpPaddingError padCount available) else pure 0
      else pure padCount
  else pure 0

/-- `_parse`, shared by strict and lenient mode. -/
def parse (strict : Bool) (data : Bytes) : Except Error RtpPacket := do
  let bufLen := data.length
  require (fixedHeaderSize ≤ bufLen) (.rtpBufferTooShort fixedHeaderSize bufLen)
  let firstByte ← getByte data 0
  let version := (firstByte >>> 6) &&& 0x03
  let paddingFlag := decide ((firstByte >>> 5) &&& 0x01 ≠ 0)
  let extensionFlag := decide ((firstByte >>> 4) &&& 0x01 ≠ 0)
  let secondByte ← getByte data 1
  let marker := decide ((secondByte >>> 7) &&& 0x01 ≠ 0)
  let payloadType := secondByte &&& 0x7F
  let seq ← unpackFrom .H data 2
  let timestamp ← unpackFrom .I data 4
  let ssrc ← unpackFrom .I data 8
  require (version = 2 ∨ strict = false) (.rtpInvalidVersion version)
  let cc ← readCsrcCount strict bufLen (firstByte &&& 0x0F)
  let csrc ← unpackMany cc data fixedHeaderSize
  let (headerExt, offset) ← readExtension strict extensionFlag data (fixedHeaderSize + cc * 4)
  let paddingSize ← readRtpPadding strict paddingFlag data offset
  pure {
    version := version
    padding := paddingFlag
    extension := extensionFlag
    marker := marker
    payloadType := payloadType
    sequenceNumber := seq
    timestamp := timestamp
    ssrc := ssrc
    csrc := csrc
    headerExtension := headerExt
    payload := slice data offset (bufLen - paddingSize)
    paddingSize := paddingSize
    raw := data }

def parseRtp (data : Bytes) : Except Error RtpPacket := parse true data

def parseRtpLenient (data : Bytes) : Except Error RtpPacket := parse false data

/-- In strict mode the entries that are announced are there. -/
theorem readCsrcCount_strict {bufLen cc n : Nat} (h : readCsrcCount true bufLen cc = .ok n) :
    n = cc ∧ fixedHeaderSize + cc * 4 ≤ bufLen := by
  unfold readCsrcCount at h
  dsimp only at h
  split at h
  next => simp at h
  next => exact ⟨(pure_eq_ok.mp h).symm, by omega⟩

end Rtpkit

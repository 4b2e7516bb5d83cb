import Rtpkit.ByteOrder
import Rtpkit.Framing
import Rtpkit.PcapModel

namespace Rtpkit

open Outcome Chunk

def globalHeaderSize : Nat := 24

def recordHeaderSize : Nat := 16

/-- The byte order and the divisor of the fractional seconds for each magic number. -/
def magicTable : List (Bytes × (ByteOrder × Nat)) :=
  [([0xa1, 0xb2, 0xc3, 0xd4], (.big, 1000000)),
   ([0xa1, 0xb2, 0x3c, 0x4d], (.big, 1000000000)),
   ([0xd4, 0xc3, 0xb2, 0xa1], (.little, 1000000)),
   ([0x4d, 0x3c, 0xb2, 0xa1], (.little, 1000000000))]

structure RecordHeader where
  tsSec : Nat
  tsFrac : Nat
  inclLen : Nat
  origLen : Nat
  deriving DecidableEq, Repr

def readRecordHeader (order : ByteOrder) (data : Bytes) (offset : Nat) :
    Except Error RecordHeader := do
  let tsSec ← unpackIn order .I data offset
  let tsFrac ← unpackIn order .I data (offset + 4)
  let inclLen ← unpackIn order .I data (offset + 8)
  let origLen ← unpackIn order .I data (offset + 12)
  pure { tsSec := tsSec, tsFrac := tsFrac, inclLen := inclLen, origLen := origLen }

/-- What the global header says of all records. -/
structure PcapFormat where
  order : ByteOrder
  tsDivisor : Nat
  linkType : Nat
  deriving DecidableEq, Repr

def PcapFormat.packet (format : PcapFormat) (hdr : RecordHeader) (data : Bytes) : PcapPacket where
  timestamp := hdr.tsSec + (hdr.tsFrac : ℚ) / format.tsDivisor
  capturedLength := hdr.inclLen
  originalLength := hdr.origLen
  linkType := format.linkType
  data := data

/-- The `while` loop of `_read_pcap`, from `offset` on. -/
def readPcapLoop (strict : Bool) (format : PcapFormat) (data : Bytes) (offset : Nat) :
    Yielded PcapPacket Error :=
  if _h : offset < data.length then
    let remaining := data.length - offset
    if remaining < recordHeaderSize then
      if strict then .raised (.pcapBufferTooShort recordHeaderSize remaining) else .returned
    else
      match readRecordHeader format.order data offset with
      | .error e => .raised e
      | .ok hdr =>
        let recordStart := offset + recordHeaderSize
        let recordEnd := recordStart + hdr.inclLen
        if data.length < recordEnd then
          if strict then .raised (.pcapTruncatedRecord hdr.inclLen (data.length - recordStart))
          else .returned
        else (readPcapLoop strict format data recordEnd).prepend
          [format.packet hdr (slice data recordStart recordEnd)]
  else .returned
termination_by data.length - offset
decreasing_by simp only [recordHeaderSize]; omega

/-- The checks of the global header, before the first record. -/
def readGlobalHeader (data : Bytes) : Except Error PcapFormat := do
  require (globalHeaderSize ≤ data.length) (.pcapBufferTooShort globalHeaderSize data.length)
  let magic := slice data 0 4
  match magicTable.lookup magic with
  | none => .error (.pcapInvalidMagic magic)
  | some (order, tsDivisor) => do
    let linkType ← unpackIn order .I data 20
    pure { order := order, tsDivisor := tsDivisor, linkType := linkType }

/-- `_read_pcap`, shared by strict and lenient mode. -/
def readPcapMode (strict : Bool) (data : Bytes) : Yielded PcapPacket Error :=
  match readGlobalHeader data with
  | .error e => .raised e
  | .ok format => readPcapLoop strict format data globalHeaderSize

def readPcap (data : Bytes) : Yielded PcapPacket Error := readPcapMode true data

def readPcapLenient (data : Bytes) : Yielded PcapPacket Error := readPcapMode false data

end Rtpkit

import Rtpkit.ByteOrder
import Rtpkit.Framing
import Rtpkit.PcapModel
import Rtpkit.RtcpBuilder

namespace Rtpkit

open Outcome Chunk

def blockHeaderSize : Nat := 8

def blockTrailerSize : Nat := 4

def minBlockSize : Nat := blockHeaderSize + blockTrailerSize

def shbMagic : Bytes := [0x0a, 0x0d, 0x0d, 0x0a]

def idbType : Nat := 0x00000001

def spbType : Nat := 0x00000003

def epbType : Nat := 0x00000006

def bomBigEndian : Bytes := [0x1a, 0x2b, 0x3c, 0x4d]

def bomLittleEndian : Bytes := [0x4d, 0x3c, 0x2b, 0x1a]

def optEndofopt : Nat := 0

def optIfTsresol : Nat := 9

def defaultTsResol : Nat := 1000000

structure Interface where
  linkType : Nat
  tsResolution : Nat
  deriving DecidableEq, Repr

/-- The codes and values that `_iter_options` yields from `pos` on. -/
def iterOptions (order : ByteOrder) (data : Bytes) (pos : Nat) : Except Error (List (Nat × Bytes)) :=
  if _h : pos + 4 ≤ data.length then do
    let code ← unpackIn order .H data pos
    let length ← unpackIn order .H data (pos + 2)
    if code = optEndofopt then pure []
    else if data.length < pos + 4 + length then pure []
    else do
      let options ← iterOptions order data (pos + 4 + (length + alignPad length))
      pure ((code, slice data (pos + 4) (pos + 4 + length)) :: options)
  else pure []
termination_by data.length - pos

def parseIfTsresol (order : ByteOrder) (options : Bytes) : Except Error Nat := do
  let options ← iterOptions order options 0
  match options.find? fun option => option.1 = optIfTsresol ∧ 1 ≤ option.2.length with
  | none => pure defaultTsResol
  | some option => do
    let raw ← getByte option.2 0
    pure (if raw &&& 0x80 ≠ 0 then 2 ^ (raw &&& 0x7F) else 10 ^ raw)

def parseIdb (body : Bytes) (order : ByteOrder) : Except Error Interface := do
  require (8 ≤ body.length) (.pcapngMalformedBlock s!"IDB body too short: {body.length} bytes")
  let linkType ← unpackIn order .H body 0
  let tsResolution ← parseIfTsresol order (slice body 8 body.length)
  pure { linkType := linkType, tsResolution := tsResolution }

def parseEpb (body : Bytes) (order : ByteOrder) (interfaces : List Interface) :
    Except Error PcapPacket := do
  require (20 ≤ body.length) (.pcapngMalformedBlock s!"EPB body too short: {body.length} bytes")
  let ifaceId ← unpackIn order .I body 0
  let tsHigh ← unpackIn order .I body 4
  let tsLow ← unpackIn order .I body 8
  let capLen ← unpackIn order .I body 12
  let origLen ← unpackIn order .I body 16
  let dataEnd := 20 + capLen
  require (dataEnd ≤ body.length) (.pcapngMalformedBlock
    s!"EPB declares {capLen} captured bytes, only {body.length - 20} available")
  match interfaces[ifaceId]? with
  | none => .error (.pcapngMalformedBlock s!"EPB references unknown interface {ifaceId}")
  | some iface =>
    let tsTicks := (tsHigh <<< 32) ||| tsLow
    pure {
      timestamp := (tsTicks : ℚ) / iface.tsResolution
      capturedLength := capLen
      originalLength := origLen
      linkType := iface.linkType
      data := slice body 20 dataEnd }

def parseSpb (body : Bytes) (order : ByteOrder) (interfaces : List Interface) :
    Except Error PcapPacket := do
  require (4 ≤ body.length) (.pcapngMalformedBlock s!"SPB body too short: {body.length} bytes")
  let origLen ← unpackIn order .I body 0
  -- anything beyond the original length is padding of the block
  let capturedLength := min origLen (body.length - 4)
  let linkType :=
    match interfaces with
    | [] => 0
    | iface :: _ => iface.linkType
  pure {
    timestamp := 0
    capturedLength := capturedLength
    originalLength := origLen
    linkType := linkType
    data := slice body 4 (4 + capturedLength) }

/-- What the loop of `_read_pcapng` keeps from block to block. -/
structure PcapngState where
  order : Option ByteOrder
  interfaces : List Interface
  deriving DecidableEq, Repr

/-- A Section Header Block sets the byte order and forgets the interfaces. -/
def startSection (state : PcapngState) (data : Bytes) (offset : Nat) : Except Error PcapngState :=
  if slice data offset (offset + 4) = shbMagic then
    let bom := slice data (offset + 8) (offset + 12)
    if bom = bomBigEndian then .ok { order := some .big, interfaces := [] }
    else if bom = bomLittleEndian then .ok { order := some .little, interfaces := [] }
    else .error (.pcapngInvalidByteOrderMagic bom)
  else .ok state

structure BlockHeader where
  order : ByteOrder
  interfaces : List Interface
  blockType : Nat
  blockTotalLength : Nat
  deriving DecidableEq, Repr

/-- The turn of the loop up to the total length of the block. -/
def readBlockHeader (state : PcapngState) (data : Bytes) (offset : Nat) :
    Except Error BlockHeader := do
  let state ← startSection state data offset
  match state.order with
  | none => .error (.pcapngMalformedBlock "file does not start with a Section Header Block")
  | some order => do
    let blockType ← unpackIn order .I data offset
    let blockTotalLength ← unpackIn order .I data (offset + 4)
    pure {
      order := order
      interfaces := state.interfaces
      blockType := blockType
      blockTotalLength := blockTotalLength }

/-- The `try` block: the interfaces after the block, and the packet it yields. -/
def parseBlock (hdr : BlockHeader) (body : Bytes) :
    Except Error (List Interface × Option PcapPacket) :=
  if hdr.blockType = idbType then do
    let iface ← parseIdb body hdr.order
    pure (hdr.interfaces ++ [iface], none)
  else if hdr.blockType = epbType then do
    let packet ← parseEpb body hdr.order hdr.interfaces
    pure (hdr.interfaces, some packet)
  else if hdr.blockType = spbType then do
    let packet ← parseSpb body hdr.order hdr.interfaces
    pure (hdr.interfaces, some packet)
  else pure (hdr.interfaces, none)

/-- The `while` loop of `_read_pcapng`, from `offset` on. -/
def readPcapngLoop (strict : Bool) (data : Bytes) (state : PcapngState) (offset : Nat) :
    Yielded PcapPacket Error :=
  if _h : offset < data.length then
    let remaining := data.length - offset
    if remaining < minBlockSize then
      if strict then .raised (.pcapngBufferTooShort minBlockSize remaining) else .returned
    else
      match readBlockHeader state data offset with
      | .error e => .raised e
      | .ok hdr =>
        let blockEnd := offset + hdr.blockTotalLength
        if _hsize : hdr.blockTotalLength < minBlockSize ∨ data.length < blockEnd then
          if strict then .raised (.pcapngMalformedBlock
            s!"block declares {hdr.blockTotalLength} bytes, unavailable")
          else .returned
        else
          match parseBlock hdr (slice data (offset + blockHeaderSize) (blockEnd - blockTrailerSize)) with
          | .ok (interfaces, packet) =>
            (readPcapngLoop strict data { order := some hdr.order, interfaces := interfaces }
              blockEnd).prepend packet.toList
          | .error (.pcapngMalformedBlock detail) =>
            if strict then .raised (.pcapngMalformedBlock detail)
            else readPcapngLoop strict data
              { order := some hdr.order, interfaces := hdr.interfaces } blockEnd
          | .error e => .raised e
  else .returned
termination_by data.length - offset
decreasing_by all_goals simp only [minBlockSize, blockHeaderSize, blockTrailerSize] at _hsize; omega

/-- `_read_pcapng`, shared by strict and lenient mode. -/
def readPcapngMode (strict : Bool) (data : Bytes) : Yielded PcapPacket Error :=
  if data.length < minBlockSize then .raised (.pcapngBufferTooShort minBlockSize data.length)
  else readPcapngLoop strict data { order := none, interfaces := [] } 0

def readPcapng (data : Bytes) : Yielded PcapPacket Error := readPcapngMode true data

def readPcapngLenient (data : Bytes) : Yielded PcapPacket Error := readPcapngMode false data

end Rtpkit

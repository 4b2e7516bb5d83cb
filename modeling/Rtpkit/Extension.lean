import Rtpkit.RtcpBuilder
import Rtpkit.RtpModel

namespace Rtpkit

open Outcome Chunk

def oneByteMagic : Int := 0xBEDE

def twoByteMask : Nat := 0xFFF0

def twoByteValue : Int := 0x1000

inductive ExtensionProfile
  | unknown
  | oneByte
  | twoByte
  deriving DecidableEq, Repr

/-- `str` of a member of the enumeration. -/
def ExtensionProfile.name : ExtensionProfile → String
  | .unknown => "ExtensionProfile.UNKNOWN"
  | .oneByte => "ExtensionProfile.ONE_BYTE"
  | .twoByte => "ExtensionProfile.TWO_BYTE"

def classifyProfile (profile : Int) : ExtensionProfile :=
  if profile = oneByteMagic then .oneByte
  else if (((profile % 0x10000).toNat &&& twoByteMask : Nat) : Int) = twoByteValue then .twoByte
  else .unknown

structure ExtensionElement where
  id : Int
  data : Bytes
  deriving DecidableEq, Repr

/-- The `while` loop of `_parse_one_byte`, from `pos` on. -/
def parseOneByte (data : Bytes) (pos : Nat) : Except Error (List ExtensionElement) :=
  if _h : pos < data.length then do
    let byte ← getByte data pos
    if byte = 0 then parseOneByte data (pos + 1)
    else
      let elemId := (byte >>> 4) &&& 0x0F
      -- a reserved ID ends the elements
      if elemId = 15 then pure []
      else
        let elemLen := (byte &&& 0x0F) + 1
        let pos := pos + 1
        if data.length < pos + elemLen then pure []
        else do
          let elements ← parseOneByte data (pos + elemLen)
          pure ({ id := elemId, data := slice data pos (pos + elemLen) } :: elements)
  else pure []
termination_by data.length - pos

/-- The `while` loop of `_parse_two_byte`, from `pos` on. -/
def parseTwoByte (data : Bytes) (pos : Nat) : Except Error (List ExtensionElement) :=
  if _h : pos < data.length then do
    let byte ← getByte data pos
    if byte = 0 then parseTwoByte data (pos + 1)
    else
      let elemId := byte
      let pos := pos + 1
      if data.length ≤ pos then pure []
      else do
        let elemLen ← getByte data pos
        let pos := pos + 1
        if data.length < pos + elemLen then pure []
        else do
          let elements ← parseTwoByte data (pos + elemLen)
          pure ({ id := elemId, data := slice data pos (pos + elemLen) } :: elements)
  else pure []
termination_by data.length - pos

def parseExtensionElements (ext : HeaderExtension) : Except Error (List ExtensionElement) :=
  match classifyProfile ext.profile with
  | .unknown => pure []
  | .oneByte => parseOneByte ext.data 0
  | .twoByte => parseTwoByte ext.data 0

/-- What `_build_one_byte` appends for an element. -/
def buildOneByteElement (elem : ExtensionElement) : Except Error Bytes := do
  require (1 ≤ elem.id ∧ elem.id ≤ 14)
    (.rtpBuildError "id" s!"must be 1-14 for one-byte format, got {elem.id}")
  let data := elem.data
  require (1 ≤ data.length ∧ data.length ≤ 16)
    (.rtpBuildError "data" s!"must be 1-16 bytes for one-byte format, got {data.length}")
  pure (UInt8.ofNat ((elem.id.toNat <<< 4) ||| (data.length - 1)) :: data)

/-- What `_build_two_byte` appends for an element. -/
def buildTwoByteElement (elem : ExtensionElement) : Except Error Bytes := do
  require (1 ≤ elem.id ∧ elem.id ≤ 255)
    (.rtpBuildError "id" s!"must be 1-255 for two-byte format, got {elem.id}")
  let data := elem.data
  require (data.length ≤ 255)
    (.rtpBuildError "data" s!"must be at most 255 bytes for two-byte format, got {data.length}")
  pure (UInt8.ofNat elem.id.toNat :: UInt8.ofNat data.length :: data)

def buildOneByte (elements : List ExtensionElement) : Except Error Bytes := do
  let parts ← elements.mapM buildOneByteElement
  pure parts.flatten

def buildTwoByte (elements : List ExtensionElement) : Except Error Bytes := do
  let parts ← elements.mapM buildTwoByteElement
  pure parts.flatten

def buildHeaderExtension (elements : List ExtensionElement)
    (profile : ExtensionProfile := .oneByte) : Except Error HeaderExtension := do
  let (profileValue, body) ← match profile with
    | .oneByte => do
      let body ← buildOneByte elements
      pure (oneByteMagic, body)
    | .twoByte => do
      let body ← buildTwoByte elements
      pure (twoByteValue, body)
    | .unknown => .error (.rtpBuildError "profile"
        s!"cannot build an extension for profile {profile.name}")
  let body := body ++ zeros (alignPad body.length)
  pure { profile := profileValue, length := (body.length / 4 : Nat), data := body }

end Rtpkit

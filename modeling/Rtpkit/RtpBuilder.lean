import Rtpkit.Extension
import Rtpkit.RtpParser

namespace Rtpkit

open Outcome

def maxCsrc : Nat := 15

def u16 : Int := 0xFFFF

def u32 : Int := 0xFFFFFFFF

structure RtpBuilder where
  version : Int := 2
  padding : Int := 0
  marker : Bool := false
  payloadType : Int := 0
  seq : Int := 0
  timestamp : Int := 0
  ssrc : Int := 0
  csrc : List Int := []
  extProfile : Option Int := none
  extData : Bytes := []
  payload : Bytes := []
  deriving DecidableEq, Repr

namespace RtpBuilder

def withVersion (b : RtpBuilder) (version : Int) : RtpBuilder := { b with version := version }

def withMarker (b : RtpBuilder) (marker : Bool) : RtpBuilder := { b with marker := marker }

def withPayloadType (b : RtpBuilder) (payloadType : Int) : RtpBuilder :=
  { b with payloadType := payloadType }

def withSequenceNumber (b : RtpBuilder) (seq : Int) : RtpBuilder := { b with seq := seq }

def withTimestamp (b : RtpBuilder) (timestamp : Int) : RtpBuilder :=
  { b with timestamp := timestamp }

def withSsrc (b : RtpBuilder) (ssrc : Int) : RtpBuilder := { b with ssrc := ssrc }

def withCsrc (b : RtpBuilder) (csrc : List Int) : RtpBuilder := { b with csrc := csrc }

def withExtension (b : RtpBuilder) (profile : Int) (data : Bytes) : RtpBuilder :=
  { b with extProfile := some profile, extData := data }

def withExtensionElements (b : RtpBuilder) (elements : List ExtensionElement)
    (profile : ExtensionProfile := .oneByte) : Except Error RtpBuilder := do
  let ext ← buildHeaderExtension elements profile
  pure (b.withExtension ext.profile ext.data)

def withPayload (b : RtpBuilder) (payload : Bytes) : RtpBuilder := { b with payload := payload }

def withPadding (b : RtpBuilder) (count : Int) : RtpBuilder := { b with padding := count }

/-- The loop of `_validate` over the CSRC entries, from entry `i` on. -/
def validateCsrc : Nat → List Int → Except Error Unit
  | _, [] => pure ()
  | i, c :: cs => do
    require (0 ≤ c ∧ c ≤ u32) (.rtpBuildError "csrc" s!"entry {i} must fit in 32 bits, got {c}")
    validateCsrc (i + 1) cs

def validateExtension (extData : Bytes) : Option Int → Except Error Unit
  | none => pure ()
  | some profile => do
    require (0 ≤ profile ∧ profile ≤ u16)
      (.rtpBuildError "extension profile" s!"must fit in 16 bits, got {profile}")
    require (extData.length % 4 = 0)
      (.rtpBuildError "extension data" s!"length must be a multiple of 4, got {extData.length}")
    require (((extData.length / 4 : Nat) : Int) ≤ u16)
      (.rtpBuildError "extension data" "word count exceeds 16 bits")

def validate (b : RtpBuilder) : Except Error Unit := do
  require (0 ≤ b.version ∧ b.version ≤ 3)
    (.rtpBuildError "version" s!"must be 0-3, got {b.version}")
  require (0 ≤ b.payloadType ∧ b.payloadType ≤ 127)
    (.rtpBuildError "payload_type" s!"must be 0-127, got {b.payloadType}")
  require (0 ≤ b.seq ∧ b.seq ≤ u16)
    (.rtpBuildError "sequence_number" s!"must fit in 16 bits, got {b.seq}")
  require (0 ≤ b.timestamp ∧ b.timestamp ≤ u32)
    (.rtpBuildError "timestamp" s!"must fit in 32 bits, got {b.timestamp}")
  require (0 ≤ b.ssrc ∧ b.ssrc ≤ u32)
    (.rtpBuildError "ssrc" s!"must fit in 32 bits, got {b.ssrc}")
  require (b.csrc.length ≤ maxCsrc)
    (.rtpBuildError "csrc" s!"at most {maxCsrc} entries, got {b.csrc.length}")
  validateCsrc 0 b.csrc
  validateExtension b.extData b.extProfile
  require (b.padding = 0 ∨ (1 ≤ b.padding ∧ b.padding ≤ 255))
    (.rtpBuildError "padding" s!"must be 1-255, got {b.padding}")

def byte0 (b : RtpBuilder) : Nat :=
  ((b.version % 4).toNat <<< 6) ||| ((0 < b.padding : Bool).toNat <<< 5) |||
    (b.extProfile.isSome.toNat <<< 4) ||| (b.csrc.length &&& 0x0F)

def byte1 (b : RtpBuilder) : Nat := (b.marker.toNat <<< 7) ||| (b.payloadType % 0x80).toNat

def packExtension (extData : Bytes) : Option Int → Except Error Bytes
  | none => pure []
  | some profile => do
    let head ← structPack [(.H, profile), (.H, (extData.length / 4 : Nat))]
    pure (head ++ extData)

def packPadding (padding : Int) : Except Error Bytes :=
  if 0 < padding then do
    let count ← structPack [(.B, padding)]
    pure (List.replicate (padding - 1).toNat 0 ++ count)
  else pure []

def build (b : RtpBuilder) : Except Error Bytes := do
  b.validate
  let header ← structPack [(.B, b.byte0), (.B, b.byte1), (.H, b.seq), (.I, b.timestamp),
    (.I, b.ssrc)]
  let csrc ← structPack (b.csrc.map fun c => (.I, c))
  let extension ← packExtension b.extData b.extProfile
  let padding ← packPadding b.padding
  pure (header ++ csrc ++ extension ++ b.payload ++ padding)

def buildPacket (b : RtpBuilder) : Except Error RtpPacket := do
  let data ← b.build
  parseRtp data

end RtpBuilder

end Rtpkit

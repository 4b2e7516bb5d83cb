import Rtpkit.Outcome

namespace Rtpkit

/-- The text of an exception. The one that `struct` gives for a number out of range is worded
differently from one interpreter to the next and left open: only the width and the number stand. -/
inductive Detail
  | text (message : String)
  | outOfRange (width : Nat) (value : Int)
  deriving DecidableEq, Repr

instance : Coe String Detail := ⟨.text⟩

/-- The exceptions of model/errors.py with their attributes, then those of the
interpreter that the code could let through. -/
inductive Error
  | rtpBufferTooShort (required actual : Nat)
  | rtpInvalidVersion (version : Nat)
  | rtpPaddingError (paddingValue available : Nat)
  | rtpExtensionError (detail : String)
  | rtpBuildError (field detail : String)
  | rtcpBufferTooShort (required actual : Nat)
  | rtcpInvalidVersion (version : Nat)
  | rtcpLengthMismatch (declared available : Nat)
  | rtcpMalformedPacket (detail : String)
  | rtcpBuildError (field : String) (detail : Detail)
  | pcapWriteError (detail : String)
  | pcapBufferTooShort (required actual : Nat)
  | pcapInvalidMagic (magic : List UInt8)
  | pcapTruncatedRecord (declared available : Nat)
  | pcapngBufferTooShort (required actual : Nat)
  | pcapngInvalidByteOrderMagic (magic : List UInt8)
  | pcapngMalformedBlock (detail : String)
  | encapsulationError (detail : String)
  | structError (detail : Detail)
  | indexError
  | keyError
  | addressValueError
  | assertionError
  deriving DecidableEq, Repr

namespace Error

/-- Whether `RtpError` is a base class; it is one of every exception of model/errors.py. -/
def isRtpError : Error → Bool
  | structError _ | indexError | keyError | addressValueError | assertionError => false
  | _ => true

def isRtcpError : Error → Bool
  | rtcpBufferTooShort _ _ | rtcpInvalidVersion _ | rtcpLengthMismatch _ _
  | rtcpMalformedPacket _ | rtcpBuildError _ _ => true
  | _ => false

def isCaptureError : Error → Bool
  | pcapWriteError _ | pcapBufferTooShort _ _ | pcapInvalidMagic _ | pcapTruncatedRecord _ _
  | pcapngBufferTooShort _ _ | pcapngInvalidByteOrderMagic _ | pcapngMalformedBlock _ => true
  | _ => false

end Error

abbrev Bytes := List UInt8

end Rtpkit

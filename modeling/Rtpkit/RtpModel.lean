import Rtpkit.Errors

namespace Rtpkit

structure HeaderExtension where
  profile : Int
  length : Int
  data : Bytes
  deriving DecidableEq, Repr

structure RtpPacket where
  version : Int
  padding : Bool
  extension : Bool
  marker : Bool
  payloadType : Int
  sequenceNumber : Int
  timestamp : Int
  ssrc : Int
  csrc : List Int
  headerExtension : Option HeaderExtension
  payload : Bytes
  paddingSize : Int
  raw : Bytes
  deriving DecidableEq, Repr

namespace RtpPacket

def cc (packet : RtpPacket) : Nat := packet.csrc.length

/-- The bytes of the fixed header, the CSRC list and the extension. -/
def headerSize (packet : RtpPacket) : Int :=
  match packet.headerExtension with
  | none => 12 + packet.csrc.length * 4
  | some ext => 12 + packet.csrc.length * 4 + (4 + ext.length * 4)

def totalSize (packet : RtpPacket) : Nat := packet.raw.length

end RtpPacket

end Rtpkit

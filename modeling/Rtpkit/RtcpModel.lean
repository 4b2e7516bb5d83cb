import Rtpkit.Errors

namespace Rtpkit

inductive RtcpPacketType
  | sr
  | rr
  | sdes
  | bye
  | app
  deriving DecidableEq, Repr

def RtcpPacketType.value : RtcpPacketType → Nat
  | .sr => 200
  | .rr => 201
  | .sdes => 202
  | .bye => 203
  | .app => 204

structure SenderInfo where
  ntpSeconds : Int
  ntpFraction : Int
  rtpTimestamp : Int
  packetCount : Int
  octetCount : Int
  deriving DecidableEq, Repr

structure ReportBlock where
  ssrc : Int
  fractionLost : Int
  cumulativeLost : Int
  extendedHighestSequence : Int
  jitter : Int
  lastSr : Int
  delaySinceLastSr : Int
  deriving DecidableEq, Repr

structure SdesItem where
  type : Int
  text : Bytes
  deriving DecidableEq, Repr

structure SdesChunk where
  ssrc : Int
  items : List SdesItem
  deriving DecidableEq, Repr

structure SenderReport where
  ssrc : Int
  senderInfo : SenderInfo
  reportBlocks : List ReportBlock
  paddingSize : Int
  deriving DecidableEq, Repr

structure ReceiverReport where
  ssrc : Int
  reportBlocks : List ReportBlock
  paddingSize : Int
  deriving DecidableEq, Repr

structure SourceDescription where
  chunks : List SdesChunk
  paddingSize : Int
  deriving DecidableEq, Repr

structure Goodbye where
  sources : List Int
  reason : Option Bytes
  paddingSize : Int
  deriving DecidableEq, Repr

structure ApplicationDefined where
  subtype : Int
  ssrc : Int
  name : String
  data : Bytes
  paddingSize : Int
  deriving DecidableEq, Repr

/-- The union `RtcpPacket` of model/rtcp.py. -/
inductive RtcpPacket
  | senderReport (pkt : SenderReport)
  | receiverReport (pkt : ReceiverReport)
  | sourceDescription (pkt : SourceDescription)
  | goodbye (pkt : Goodbye)
  | applicationDefined (pkt : ApplicationDefined)
  deriving DecidableEq, Repr

def RtcpPacket.className : RtcpPacket → String
  | .senderReport _ => "SenderReport"
  | .receiverReport _ => "ReceiverReport"
  | .sourceDescription _ => "SourceDescription"
  | .goodbye _ => "Goodbye"
  | .applicationDefined _ => "ApplicationDefined"

def RtcpPacket.paddingSize : RtcpPacket → Int
  | .senderReport pkt => pkt.paddingSize
  | .receiverReport pkt => pkt.paddingSize
  | .sourceDescription pkt => pkt.paddingSize
  | .goodbye pkt => pkt.paddingSize
  | .applicationDefined pkt => pkt.paddingSize

end Rtpkit

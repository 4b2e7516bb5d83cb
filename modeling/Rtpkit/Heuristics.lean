import Rtpkit.RtcpParser
import Rtpkit.RtpParser

namespace Rtpkit

/-- `range(72, 77)`, the payload types that look like packet types of RTCP. -/
def rtcpCollisionRange : List Int := (List.range' 72 5).map Int.ofNat

theorem mem_rtcpCollisionRange {payloadType : Int} :
    payloadType ∈ rtcpCollisionRange ↔ 72 ≤ payloadType ∧ payloadType ≤ 76 := by
  simp [rtcpCollisionRange, List.range'_succ]
  omega

def looksLikeRtp (data : Bytes) : Except Error Bool :=
  match parseRtp data with
  | .ok packet => .ok (packet.payloadType ∉ rtcpCollisionRange)
  | .error e => if e.isRtpError then .ok false else .error e

/-- A compound begins with a report of a sender or of a receiver. -/
def startsWithReport : List RtcpPacket → Bool
  | .senderReport _ :: _ => true
  | .receiverReport _ :: _ => true
  | _ => false

def looksLikeRtcp (data : Bytes) : Except Error Bool :=
  match parseRtcp data with
  | .ok packets => .ok (startsWithReport packets)
  | .error e => if e.isRtcpError then .ok false else .error e

end Rtpkit

import Rtpkit.FlowClassifier
import Rtpkit.RtcpNormalise
import Rtpkit.RtpTotal

namespace Rtpkit

open Outcome Chunk

theorem packetType_of_parseOne {packetType count : Nat} {content : Bytes} {padding : Int}
    {pkt : RtcpPacket} (h : parseOne packetType count content padding = .ok pkt) :
    ∃ t : RtcpPacketType, packetType = t.value := by
  unfold parseOne at h
  split at h
  next hsr => exact ⟨.sr, hsr⟩
  split at h
  next hrr => exact ⟨.rr, hrr⟩
  split at h
  next hsdes => exact ⟨.sdes, hsdes⟩
  split at h
  next hbye => exact ⟨.bye, hbye⟩
  split at h
  next happ => exact ⟨.app, happ⟩
  next => cases h

/-- The second byte of an accepted compound is a packet type of RTCP. -/
theorem getByte_of_parseRtcp {data : Bytes} {packets : List RtcpPacket}
    (h : parseRtcp data = .ok packets) : ∃ t : RtcpPacketType, getByte data 1 = .ok t.value := by
  obtain ⟨_, hlen, hloop⟩ := bind_eq_ok.mp h
  have hlen := require_eq_ok.mp hlen
  rcases parseLoop_strict_cases hloop with
    ⟨hle, -⟩ | ⟨hdr, pkt, rest, padding, hheader, -, -, hpkt, -, -⟩
  · simp only [headerSize] at hlen
    omega
  · obtain ⟨t, ht⟩ := packetType_of_parseOne hpkt
    simp only [readHeader, bind_eq_ok] at hheader
    obtain ⟨first, -, packetType, hbyte, words, -, hheader⟩ := hheader
    cases pure_eq_ok.mp hheader
    exact ⟨t, ht ▸ hbyte⟩

/-- The payload type is the second byte without the marker. -/
theorem payloadType_of_parse {strict : Bool} {data : Bytes} {packet : RtpPacket}
    (h : parse strict data = .ok packet) :
    ∃ second, getByte data 1 = .ok second ∧ packet.payloadType = (second &&& 0x7F : Nat) := by
  simp only [parse, bind_eq_ok] at h
  obtain ⟨_, -, first, -, second, hsecond, _, -, _, -, _, -, _, -, _, -, _, -, _, -, _, -, h⟩ := h
  cases pure_eq_ok.mp h
  exact ⟨second, hsecond, rfl⟩

theorem value_mem_rtcpCollisionRange (t : RtcpPacketType) :
    ((t.value &&& 0x7F : Nat) : Int) ∈ rtcpCollisionRange := by
  cases t with
  | sr => decide
  | rr => decide
  | sdes => decide
  | bye => decide
  | app => decide

/-- What RTCP accepts is not RTP, or is RTP of a payload type that is not counted. -/
theorem parseRtp_of_parseRtcp {data : Bytes} {packets : List RtcpPacket}
    (h : parseRtcp data = .ok packets) :
    (∃ e, parseRtp data = .error e ∧ e.isRtpError = true) ∨
      ∃ packet, parseRtp data = .ok packet ∧ packet.payloadType ∈ rtcpCollisionRange := by
  cases hparse : parseRtp data with
  | error e => exact .inl ⟨e, rfl, parse_failsOnly true data e hparse⟩
  | ok packet =>
    obtain ⟨t, hbyte⟩ := getByte_of_parseRtcp h
    obtain ⟨second, hsecond, hpayloadType⟩ := payloadType_of_parse hparse
    cases hbyte.symm.trans hsecond
    exact .inr ⟨packet, rfl, hpayloadType ▸ value_mem_rtcpCollisionRange t⟩

theorem looksLikeRtp_of_parseRtcp {data : Bytes} {packets : List RtcpPacket}
    (h : parseRtcp data = .ok packets) : looksLikeRtp data = .ok false := by
  rw [looksLikeRtp]
  rcases parseRtp_of_parseRtcp h with ⟨e, hparse, he⟩ | ⟨packet, hparse, hcollision⟩
  · rw [hparse]
    exact if_pos he
  · rw [hparse]
    exact congrArg Except.ok (decide_eq_false (not_not.mpr hcollision))

theorem observe_of_parseRtcp {data : Bytes} {packets : List RtcpPacket}
    (h : parseRtcp data = .ok packets) (c : RtpFlowClassifier) :
    c.observe data = .ok { c with packetsObserved := c.packetsObserved + 1 } := by
  rw [RtpFlowClassifier.observe]
  rcases parseRtp_of_parseRtcp h with ⟨e, hparse, he⟩ | ⟨packet, hparse, hcollision⟩
  · rw [hparse]
    exact if_pos he
  · rw [hparse]
    exact if_pos hcollision

theorem parseRtcp_of_looksLikeRtcp {data : Bytes} (h : looksLikeRtcp data = .ok true) :
    ∃ packets, parseRtcp data = .ok packets := by
  rw [looksLikeRtcp] at h
  cases hparse : parseRtcp data with
  | ok packets => exact ⟨packets, rfl⟩
  | error e =>
    rw [hparse] at h
    dsimp only at h
    split at h
    next => cases h
    next => cases h

/-- The detection of RTP and that of RTCP never both claim a packet. -/
theorem detection_disjoint :
    (∀ data packets, parseRtcp data = .ok packets → looksLikeRtp data = .ok false ∧
      ∀ c : RtpFlowClassifier,
        c.observe data = .ok { c with packetsObserved := c.packetsObserved + 1 }) ∧
    ∀ data, ¬(looksLikeRtp data = .ok true ∧ looksLikeRtcp data = .ok true) := by
  refine ⟨fun data packets h => ⟨looksLikeRtp_of_parseRtcp h, observe_of_parseRtcp h⟩, ?_⟩
  rintro data ⟨hrtp, hrtcp⟩
  obtain ⟨packets, hparse⟩ := parseRtcp_of_looksLikeRtcp hrtcp
  cases hrtp.symm.trans (looksLikeRtp_of_parseRtcp hparse)

/-- A sender report without report blocks, which is also a packet of RTP. -/
def plainSenderReport : Bytes := [0x80, 0xC8, 0, 6] ++ List.replicate 24 0

theorem detection_disjoint_plainSenderReport :
    (∃ packet, parseRtp plainSenderReport = .ok packet ∧ packet.payloadType = 72) ∧
      looksLikeRtp plainSenderReport = .ok false ∧
      RtpFlowClassifier.new.observe plainSenderReport =
        .ok { RtpFlowClassifier.new with packetsObserved := 1 } := by
  have hrtp : parseRtp plainSenderReport = .ok {
      version := 2, padding := false, extension := false, marker := true, payloadType := 72
      sequenceNumber := 6, timestamp := 0, ssrc := 0, csrc := [], headerExtension := none
      payload := List.replicate 16 0, paddingSize := 0, raw := plainSenderReport } := by
    decide +kernel
  have hrtcp : parseRtcp plainSenderReport = .ok [.senderReport {
      ssrc := 0
      senderInfo := {
        ntpSeconds := 0, ntpFraction := 0, rtpTimestamp := 0, packetCount := 0, octetCount := 0 }
      reportBlocks := [], paddingSize := 0 }] := by
    decide +kernel
  obtain ⟨hrejected, hobserved⟩ := detection_disjoint.1 plainSenderReport _ hrtcp
  exact ⟨⟨_, hrtp, rfl⟩, hrejected, hobserved _⟩

end Rtpkit

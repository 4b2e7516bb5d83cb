import Rtpkit.FramingVisits
import Rtpkit.RtcpConcat

namespace Rtpkit

open Outcome

/-- The subclasses of `RtcpError` for what is wrong with received bytes. -/
def IsRtcpParseError : Error → Prop
  | .rtcpBufferTooShort _ _ => True
  | .rtcpInvalidVersion _ => True
  | .rtcpLengthMismatch _ _ => True
  | .rtcpMalformedPacket _ => True
  | _ => False

theorem IsRtcpMalformed.isRtcpParseError {e : Error} (h : IsRtcpMalformed e) :
    IsRtcpParseError e := by
  obtain ⟨detail, rfl⟩ := h
  trivial

theorem rtcpObjection_isRtcpParseError {hdr : RtcpHeader} {body : Bytes} {e : Error}
    (h : rtcpObjection hdr body = some e) : IsRtcpParseError e := by
  unfold rtcpObjection at h
  split at h
  next =>
    cases h
    trivial
  next =>
    split at h
    next => cases h
    next e' hbody =>
      cases h
      exact (parseBody_failsOnly true hdr body e hbody).isRtcpParseError

theorem rtcpHead_cut {rest : Bytes} {e : Error} (h : rtcpHead rest = .cut e) :
    IsRtcpParseError e := by
  unfold rtcpHead at h
  split at h
  next =>
    cases h
    trivial
  split at h
  next => cases h
  split at h
  next =>
    cases h
    split
    next => trivial
    next => trivial
  split at h
  next => cases h
  next => cases h

theorem rtcpHead_stops {strict : Bool} {rest : Bytes} {e : Error}
    (h : (rtcpHead rest).Stops strict e) : strict = true ∧ IsRtcpParseError e := by
  cases hhead : rtcpHead rest with
  | unit size after objection item =>
    rw [hhead] at h
    obtain ⟨hdr, -, -, -, -, -, hobjection⟩ := rtcpHead_eq_unit.mp hhead
    exact ⟨h.1, rtcpObjection_isRtcpParseError (hobjection.trans h.2)⟩
  | cut failure =>
    rw [hhead] at h
    exact ⟨h.1, rtcpHead_cut (hhead.trans (congrArg Head.cut h.2))⟩
  | fatal failure => exact absurd hhead (rtcpHead_ne_fatal rest failure)

theorem parseCompound_failsOnly (strict : Bool) (data : Bytes) :
    FailsOnly IsRtcpParseError (parseCompound strict data) := by
  intro e h
  by_cases hlen : headerSize ≤ data.length
  · rw [parseCompound_eq_run strict hlen] at h
    obtain ⟨s, off, -, -, hstop⟩ := Framing.failure_run_iff.mp (Yielded.toExcept_eq_error.mp h)
    exact (rtcpHead_stops hstop).2
  · rw [parseCompound, require_neg hlen, bind_error] at h
    cases h
    trivial

/-- Every packet takes at least its header. -/
theorem length_parseCompound {strict : Bool} {data : Bytes} {packets : List RtcpPacket}
    (h : parseCompound strict data = .ok packets) : packets.length ≤ data.length / 4 := by
  have hlen : headerSize ≤ data.length := by
    obtain ⟨_, hlen, -⟩ := bind_eq_ok.mp h
    exact require_eq_ok.mp hlen
  rw [parseCompound_eq_run strict hlen, Yielded.toExcept_eq_ok] at h
  have hwidth : ∀ s rest size after objection a,
      rtcpFraming.head s rest = .unit size after objection (some a) → headerSize ≤ size := by
    intro _ rest size _ objection packet hhead
    obtain ⟨hdr, -, -, rfl, -⟩ := rtcpHead_eq_unit.mp hhead
    exact headerSize_le_packetLen hdr
  have hroom := Framing.length_run_items hwidth strict () data
  rw [h] at hroom
  simp only [headerSize] at hroom
  omega

/-- Strict mode raises what it documents and nothing else, lenient mode raises only on less than
a header, and neither reads more packets than there are headers in the data. -/
theorem parseRtcp_safe (data : Bytes) :
    (∀ e, parseRtcp data = .error e → IsRtcpParseError e) ∧
    (∀ e, parseRtcpLenient data = .error e ↔
      data.length < 4 ∧ e = .rtcpBufferTooShort 4 data.length) ∧
    (∀ packets, parseRtcp data = .ok packets → packets.length ≤ data.length / 4) ∧
    (∀ packets, parseRtcpLenient data = .ok packets → packets.length ≤ data.length / 4) := by
  refine ⟨parseCompound_failsOnly true data, fun e => ?_, fun _ => length_parseCompound,
    fun _ => length_parseCompound⟩
  by_cases hlen : headerSize ≤ data.length
  · obtain ⟨packets, hpackets⟩ := exists_parseRtcpLenient hlen
    rw [hpackets]
    refine ⟨fun h => ?_, fun h => absurd h.1 (by simp only [headerSize] at hlen; omega)⟩
    cases h
  · rw [parseRtcpLenient, parseCompound, require_neg hlen, bind_error]
    simp only [headerSize] at hlen
    refine ⟨fun h => ⟨by omega, (Except.error.inj h).symm⟩, fun h => ?_⟩
    rw [h.2]
    rfl

end Rtpkit

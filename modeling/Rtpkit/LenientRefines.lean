import Rtpkit.PcapFraming
import Rtpkit.PcapngFraming
import Rtpkit.RtcpConcat
import Rtpkit.RtpParser

namespace Rtpkit

open Outcome

theorem readCsrcCount_lenient {bufLen cc n : Nat} (h : readCsrcCount true bufLen cc = .ok n) :
    readCsrcCount false bufLen cc = .ok n := by
  unfold readCsrcCount at h ⊢
  dsimp only at h ⊢
  split at h
  next => cases h
  next hroom => rwa [if_neg hroom]

theorem readExtension_lenient {flag : Bool} {data : Bytes} {offset : Nat}
    {result : Option HeaderExtension × Nat} (h : readExtension true flag data offset = .ok result) :
    readExtension false flag data offset = .ok result := by
  unfold readExtension at h ⊢
  dsimp only at h ⊢
  split at h
  next hflag =>
    rw [if_pos hflag]
    split at h
    next => cases h
    next hroom =>
      rw [if_neg hroom]
      obtain ⟨extProfile, hprofile, h⟩ := bind_eq_ok.mp h
      obtain ⟨extWordLen, hwords, h⟩ := bind_eq_ok.mp h
      rw [hprofile, bind_ok, hwords, bind_ok]
      split at h
      next => cases h
      next hdata => rwa [if_neg hdata]
  next hflag => rwa [if_neg hflag]

theorem readRtpPadding_lenient {flag : Bool} {data : Bytes} {offset n : Nat}
    (h : readRtpPadding true flag data offset = .ok n) :
    readRtpPadding false flag data offset = .ok n := by
  unfold readRtpPadding at h ⊢
  dsimp only at h ⊢
  split at h
  next hflag =>
    rw [if_pos hflag]
    split at h
    next => cases h
    next hroom =>
      rw [if_neg hroom]
      obtain ⟨padCount, hpad, h⟩ := bind_eq_ok.mp h
      rw [hpad, bind_ok]
      split at h
      next => cases h
      next hzero =>
        rw [if_neg hzero]
        split at h
        next => cases h
        next hfits => rwa [if_neg hfits]
  next hflag => rwa [if_neg hflag]

theorem parse_lenient {data : Bytes} {packet : RtpPacket} (h : parse true data = .ok packet) :
    parse false data = .ok packet := by
  simp only [parse, bind_eq_ok, require_eq_ok, exists_const] at h ⊢
  obtain ⟨hlen, first, hfirst, second, hsecond, seq, hseq, timestamp, htimestamp, ssrc, hssrc,
    hversion, cc, hcc, csrc, hcsrc, ext, hext, padding, hpadding, h⟩ := h
  exact ⟨hlen, first, hfirst, second, hsecond, seq, hseq, timestamp, htimestamp, ssrc, hssrc,
    .inr trivial, cc, readCsrcCount_lenient hcc, csrc, hcsrc, ext, readExtension_lenient hext,
    padding, readRtpPadding_lenient hpadding, h⟩

theorem parseRtcp_lenient {data : Bytes} {packets : List RtcpPacket}
    (h : parseRtcp data = .ok packets) : parseRtcpLenient data = .ok packets := by
  have hlen := headerSize_le_of_parseRtcp h
  obtain ⟨frames, hreads, hitems⟩ := exists_reads_of_parseRtcp h
  rw [parseRtcpLenient, parseCompound_eq_run false hlen, hreads.run_eq, hitems]
  rfl

section Pcap

variable {data : Bytes}

theorem pcapFraming_quiet {format : PcapFormat} (s : Unit) (rest : Bytes) (size : Nat) (after : Unit)
    (objection : Option Error) (item : Option PcapPacket)
    (h : (pcapFraming format).head s rest = .unit size after objection item) : objection = none := by
  obtain ⟨_, _, _, _, _, hquiet, _⟩ := pcapHead_eq_unit.mp h
  exact hquiet

theorem readPcap_lenient (h : (readPcap data).failure = none) :
    readPcapLenient data = readPcap data := by
  unfold readPcap readPcapLenient at *
  cases hhdr : readGlobalHeader data with
  | error e =>
    rw [readPcapMode_error true hhdr] at h
    cases h
  | ok format =>
    rw [readPcapMode_eq_run true hhdr] at h ⊢
    rw [readPcapMode_eq_run false hhdr]
    exact Framing.run_lenient_eq h

theorem readPcap_items : (readPcap data).items = (readPcapLenient data).items := by
  unfold readPcap readPcapLenient
  cases hhdr : readGlobalHeader data with
  | error e => rw [readPcapMode_error true hhdr, readPcapMode_error false hhdr]
  | ok format =>
    rw [readPcapMode_eq_run true hhdr, readPcapMode_eq_run false hhdr]
    exact Framing.run_items_eq pcapFraming_quiet () _

theorem readPcapng_lenient (h : (readPcapng data).failure = none) :
    readPcapngLenient data = readPcapng data := by
  unfold readPcapng readPcapngLenient at *
  by_cases hlen : minBlockSize ≤ data.length
  · rw [readPcapngMode_eq_run true hlen] at h ⊢
    rw [readPcapngMode_eq_run false hlen]
    exact Framing.run_lenient_eq h
  · rw [readPcapngMode, if_pos (by omega)] at h
    cases h

theorem readPcapng_prefix : (readPcapng data).items <+: (readPcapngLenient data).items := by
  unfold readPcapng readPcapngLenient
  by_cases hlen : minBlockSize ≤ data.length
  · rw [readPcapngMode_eq_run true hlen, readPcapngMode_eq_run false hlen]
    exact Framing.run_strict_prefix _ _
  · rw [readPcapngMode, if_pos (by omega)]
    exact List.nil_prefix

end Pcap

/-- Lenient mode does what strict mode does wherever strict mode does not raise. -/
theorem lenient_refines_strict (data : Bytes) :
    (∀ packet, parseRtp data = .ok packet → parseRtpLenient data = .ok packet) ∧
    (∀ packets, parseRtcp data = .ok packets → parseRtcpLenient data = .ok packets) ∧
    (∀ packets, readPcap data = ⟨packets, none⟩ → readPcapLenient data = ⟨packets, none⟩) ∧
    (∀ packets, readPcapng data = ⟨packets, none⟩ → readPcapngLenient data = ⟨packets, none⟩) ∧
    (readPcapLenient data).items = (readPcap data).items ∧
    (readPcapng data).items <+: (readPcapngLenient data).items := by
  refine ⟨fun _ => parse_lenient, fun _ => parseRtcp_lenient, fun packets h => ?_,
    fun packets h => ?_, readPcap_items.symm, readPcapng_prefix⟩
  · rw [readPcap_lenient (by rw [h]), h]
  · rw [readPcapng_lenient (by rw [h]), h]

end Rtpkit

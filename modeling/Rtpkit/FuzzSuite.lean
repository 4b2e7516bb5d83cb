import Rtpkit.CaptureSafety
import Rtpkit.DecapSafety
import Rtpkit.FuzzCorpus
import Rtpkit.FuzzRunner
import Rtpkit.RtcpSafety
import Rtpkit.RtpLenient

namespace Rtpkit

open Outcome

namespace Fuzz

/-- The entry points that the package runs its own fuzzing over. -/
inductive EntryPoint
  | parseRtp
  | parseRtpLenient
  | parseRtcp
  | parseRtcpLenient
  | readPcap
  | readPcapLenient
  | readPcapng
  | readPcapngLenient
  | decapsulateUdp (linkType : Int)
  deriving DecidableEq, Repr

namespace EntryPoint

/-- A call that consumes its result, as `list` does with what a reader yields. -/
def run (lib : IpAddressModule) : EntryPoint → Bytes → Except Error Unit
  | parseRtp, data => discard (Rtpkit.parseRtp data)
  | parseRtpLenient, data => discard (Rtpkit.parseRtpLenient data)
  | parseRtcp, data => discard (Rtpkit.parseRtcp data)
  | parseRtcpLenient, data => discard (Rtpkit.parseRtcpLenient data)
  | readPcap, data => discard (Rtpkit.readPcap data).toExcept
  | readPcapLenient, data => discard (Rtpkit.readPcapLenient data).toExcept
  | readPcapng, data => discard (Rtpkit.readPcapng data).toExcept
  | readPcapngLenient, data => discard (Rtpkit.readPcapngLenient data).toExcept
  | decapsulateUdp linkType, data => discard (Rtpkit.decapsulateUdp lib linkType data)

/-- `allowed_exceptions` of the test of each entry point. -/
def allowed : EntryPoint → Error → Bool
  | parseRtp, e => e.isRtpError
  | parseRtpLenient, .rtpBufferTooShort _ _ => true
  | parseRtcp, e => e.isRtcpError
  | parseRtcpLenient, .rtcpBufferTooShort _ _ => true
  | readPcap, e => e.isCaptureError
  | readPcapLenient, .pcapBufferTooShort _ _ => true
  | readPcapLenient, .pcapInvalidMagic _ => true
  | readPcapng, e => e.isCaptureError
  | readPcapngLenient, .pcapngBufferTooShort _ _ => true
  | readPcapngLenient, .pcapngInvalidByteOrderMagic _ => true
  | readPcapngLenient, .pcapngMalformedBlock _ => true
  | _, _ => false

end EntryPoint

section Failures

variable {data : Bytes} {e : Error}

theorem failsOnly_toExcept {allowed : Error → Prop} {α : Type} {y : Yielded α Error}
    (h : ∀ e, y.failure = some e → allowed e) : FailsOnly allowed y.toExcept :=
  fun e he => h e (Yielded.toExcept_eq_error.mp he)

theorem readGlobalHeader_failure (h : readGlobalHeader data = .error e) :
    EntryPoint.readPcapLenient.allowed e = true := by
  have hshort : FailsOnly (fun e => EntryPoint.readPcapLenient.allowed e = true)
      (require (24 ≤ data.length) (.pcapBufferTooShort 24 data.length)) :=
    failsOnly_require rfl
  refine failsOnly_bind hshort (fun _ hroom => ?_) e h
  have hroom : 24 ≤ data.length := require_eq_ok.mp hroom
  dsimp only
  split
  next => exact failsOnly_error rfl
  next order tsDivisor _ =>
    refine failsOnly_bind (unpackIn_failsOnly order ?_) fun _ _ => failsOnly_ok _
    simp only [Fmt.size_I]
    omega

theorem pcapHead_ne_fatal (format : PcapFormat) (rest : Bytes) (e : Error) :
    pcapHead format rest ≠ .fatal e := by
  unfold pcapHead
  split
  next => exact nofun
  next hroom =>
    obtain ⟨hdr, hhdr⟩ := exists_readRecordHeader format.order
      (show 0 + recordHeaderSize ≤ rest.length by omega)
    rw [hhdr]
    dsimp only
    split
    next => exact nofun
    next => exact nofun

theorem readBlockHeader_failure {state : PcapngState} (hroom : minBlockSize ≤ data.length)
    (h : readBlockHeader state data 0 = .error e) :
    EntryPoint.readPcapngLenient.allowed e = true := by
  simp only [minBlockSize, blockHeaderSize, blockTrailerSize] at hroom
  have hstart : FailsOnly (fun e => EntryPoint.readPcapngLenient.allowed e = true)
      (startSection state data 0) := by
    unfold startSection
    dsimp only
    split
    next =>
      split
      next => exact failsOnly_ok _
      split
      next => exact failsOnly_ok _
      next => exact failsOnly_error rfl
    next => exact failsOnly_ok _
  refine failsOnly_bind hstart (fun state' _ => ?_) e h
  split
  next => exact failsOnly_error rfl
  next order _ =>
    refine failsOnly_bind (unpackIn_failsOnly order ?_) fun _ _ => ?_
    · simp only [Fmt.size_I]
      omega
    refine failsOnly_bind (unpackIn_failsOnly order ?_) fun _ _ => failsOnly_ok _
    simp only [Fmt.size_I]
    omega

/-- What lenient mode cannot get past is in the global header. -/
theorem readPcapLenient_failure (h : (readPcapLenient data).failure = some e) :
    EntryPoint.readPcapLenient.allowed e = true := by
  rw [readPcapLenient] at h
  cases hformat : readGlobalHeader data with
  | error e' =>
    rw [readPcapMode_error false hformat] at h
    cases h
    exact readGlobalHeader_failure hformat
  | ok format =>
    rw [readPcapMode_eq_run false hformat] at h
    obtain ⟨_, off, -, -, hstop⟩ := Framing.failure_run_iff.mp h
    exact absurd (Head.stops_lenient_iff.mp hstop) (pcapHead_ne_fatal format _ e)

/-- What lenient mode cannot get past is a block of no known byte order. -/
theorem readPcapngLenient_failure (h : (readPcapngLenient data).failure = some e) :
    EntryPoint.readPcapngLenient.allowed e = true := by
  rw [readPcapngLenient] at h
  by_cases hlen : minBlockSize ≤ data.length
  · rw [readPcapngMode_eq_run false hlen] at h
    obtain ⟨state, off, -, -, hstop⟩ := Framing.failure_run_iff.mp h
    have hfatal := Head.stops_lenient_iff.mp hstop
    change pcapngHead state (data.drop off) = .fatal e at hfatal
    unfold pcapngHead at hfatal
    split at hfatal
    next => cases hfatal
    next hroom =>
      split at hfatal
      next e' hhdr =>
        cases hfatal
        exact readBlockHeader_failure (by omega) hhdr
      next =>
        dsimp only at hfatal
        split at hfatal
        next => cases hfatal
        next => cases hfatal
  · rw [readPcapngMode, if_pos (by omega)] at h
    cases h
    rfl

end Failures

theorem run_failsOnly (lib : IpAddressModule) (entry : EntryPoint) (data : Bytes) :
    FailsOnly (fun e => entry.allowed e = true) (entry.run lib data) := by
  cases entry with
  | parseRtp => exact failsOnly_map (parse_failsOnly true data)
  | parseRtpLenient =>
    refine failsOnly_map fun e he => ?_
    rcases Nat.lt_or_ge data.length 12 with hshort | hlen
    · rw [parseRtpLenient_short hshort] at he
      cases he
      rfl
    · rw [parseRtpLenient_eq hlen] at he
      cases he
  | parseRtcp =>
    refine failsOnly_map fun e he => ?_
    have hparse := parseCompound_failsOnly true data e he
    cases e <;> first | rfl | exact hparse.elim
  | parseRtcpLenient =>
    refine failsOnly_map fun e he => ?_
    rcases Nat.lt_or_ge data.length headerSize with hshort | hlen
    · rw [Rtpkit.parseRtcpLenient, parseCompound, require_neg (by omega), bind_error] at he
      cases he
      rfl
    · obtain ⟨packets, hpackets⟩ := exists_parseRtcpLenient hlen
      rw [hpackets] at he
      cases he
  | readPcap =>
    exact failsOnly_map (failsOnly_toExcept (readPcapMode_safe true data).failure)
  | readPcapLenient =>
    exact failsOnly_map (failsOnly_toExcept fun _ => readPcapLenient_failure)
  | readPcapng =>
    exact failsOnly_map (failsOnly_toExcept (readPcapngMode_safe true data).failure)
  | readPcapngLenient =>
    exact failsOnly_map (failsOnly_toExcept fun _ => readPcapngLenient_failure)
  | decapsulateUdp linkType =>
    obtain ⟨result, hresult⟩ := exists_decapsulateUdp lib linkType data
    refine failsOnly_map ?_
    rw [hresult]
    exact failsOnly_ok result

/-- Whatever the corpus, no entry point crashes, and so no run of the fuzzer over its own cases
can report one. -/
theorem entryPoints_never_crash (lib : IpAddressModule) (view : ExceptionView Error)
    (entry : EntryPoint) :
    (∀ cases : List Bytes, fuzzParser view (entry.run lib) entry.allowed ⟨cases, none⟩ =
      .ok ⟨cases.length, []⟩) ∧
    ∀ (σ : Type) (rng : Source σ) (s : σ) (seeds : List Bytes) (count : Int),
      ∃ cases, fuzzCases rng seeds 64 count s = ⟨cases, none⟩ ∧
        fuzzParser view (entry.run lib) entry.allowed ⟨cases, none⟩ = .ok ⟨count.toNat, []⟩ := by
  have hquiet : ∀ cases : List Bytes,
      fuzzParser view (entry.run lib) entry.allowed ⟨cases, none⟩ = .ok ⟨cases.length, []⟩ := by
    intro cases
    have hescapes : NothingEscapes view (entry.run lib) entry.allowed cases := by
      rintro case - e ⟨hrun, hallowed, -⟩
      exact absurd (run_failsOnly lib entry case e hrun) (by simp [hallowed])
    have hcrashes : cases.filterMap (crashOf view (entry.run lib) entry.allowed) = [] :=
      List.filterMap_eq_nil_iff.mpr fun case _ => crashOf_eq_none.mpr (run_failsOnly lib entry case)
    rw [fuzzParser_eq (y := ⟨cases, none⟩) hescapes, hcrashes]
  refine ⟨hquiet, fun σ rng s seeds count => ?_⟩
  obtain ⟨cases, -, ⟨hyield, hlen⟩ | ⟨-, -, hmax⟩⟩ :=
    yieldCases_sound seeds 64 rng count.toNat s
  · exact ⟨cases, hyield, by rw [hquiet, hlen]⟩
  · omega

end Fuzz

end Rtpkit

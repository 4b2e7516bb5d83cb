import Rtpkit.RtpParser

namespace Rtpkit

open Outcome Chunk

theorem readCsrcCount_failsOnly (strict : Bool) (bufLen cc : Nat) :
    FailsOnly (fun e => e.isRtpError = true) (readCsrcCount strict bufLen cc) := by
  unfold readCsrcCount
  dsimp only
  split
  next =>
    split
    next => exact failsOnly_error rfl
    next => exact failsOnly_ok _
  next => exact failsOnly_ok _

/-- The entries that are counted are there. -/
theorem readCsrcCount_le {strict : Bool} {bufLen cc n : Nat} (hlen : fixedHeaderSize ≤ bufLen)
    (h : readCsrcCount strict bufLen cc = .ok n) : fixedHeaderSize + n * 4 ≤ bufLen := by
  unfold readCsrcCount at h
  dsimp only at h
  split at h
  next =>
    split at h
    next => cases h
    next =>
      cases h
      omega
  next =>
    cases h
    omega

theorem readExtension_failsOnly (strict extensionFlag : Bool) (data : Bytes) (offset : Nat) :
    FailsOnly (fun e => e.isRtpError = true) (readExtension strict extensionFlag data offset) := by
  unfold readExtension
  dsimp only
  split
  next =>
    split
    next =>
      split
      next => exact failsOnly_error rfl
      next => exact failsOnly_ok _
    next hroom =>
      refine failsOnly_bind (unpackFrom_failsOnly (by simp only [Fmt.size_H]; omega)) fun _ _ => ?_
      refine failsOnly_bind (unpackFrom_failsOnly (by simp only [Fmt.size_H]; omega)) fun _ _ => ?_
      split
      next =>
        split
        next => exact failsOnly_error rfl
        next => exact failsOnly_ok _
      next => exact failsOnly_ok _
  next => exact failsOnly_ok _

theorem readRtpPadding_failsOnly (strict paddingFlag : Bool) (data : Bytes) (offset : Nat) :
    FailsOnly (fun e => e.isRtpError = true) (readRtpPadding strict paddingFlag data offset) := by
  have hgiveUp : ∀ padding available, FailsOnly (fun e => e.isRtpError = true)
      (if strict then .error (Error.rtpPaddingError padding available) else pure 0 :
        Except Error Nat) := by
    intro padding available
    split
    next => exact failsOnly_error rfl
    next => exact failsOnly_ok _
  unfold readRtpPadding
  dsimp only
  split
  next =>
    split
    next => exact hgiveUp _ _
    next hroom =>
      refine failsOnly_bind (getByte_failsOnly (by omega)) fun _ _ => ?_
      split
      next => exact hgiveUp _ _
      split
      next => exact hgiveUp _ _
      next => exact failsOnly_ok _
  next => exact failsOnly_ok _

/-- The parser reads within the data, and raises exceptions of its own only. -/
theorem parse_failsOnly (strict : Bool) (data : Bytes) :
    FailsOnly (fun e => e.isRtpError = true) (parse strict data) := by
  refine failsOnly_bind (failsOnly_require rfl) fun _ hlen => ?_
  have hlen : fixedHeaderSize ≤ data.length := require_eq_ok.mp hlen
  have hlen12 : 12 ≤ data.length := hlen
  refine failsOnly_bind (getByte_failsOnly (by omega)) fun _ _ => ?_
  refine failsOnly_bind (getByte_failsOnly (by omega)) fun _ _ => ?_
  refine failsOnly_bind (unpackFrom_failsOnly (by simp only [Fmt.size_H]; omega)) fun _ _ => ?_
  refine failsOnly_bind (unpackFrom_failsOnly (by simp only [Fmt.size_I]; omega)) fun _ _ => ?_
  refine failsOnly_bind (unpackFrom_failsOnly (by simp only [Fmt.size_I]; omega)) fun _ _ => ?_
  refine failsOnly_bind (failsOnly_require rfl) fun _ _ => ?_
  refine failsOnly_bind (readCsrcCount_failsOnly _ _ _) fun _ hcount => ?_
  refine failsOnly_bind (unpackMany_failsOnly (readCsrcCount_le hlen hcount)) fun _ _ => ?_
  refine failsOnly_bind (readExtension_failsOnly _ _ _ _) fun _ _ => ?_
  exact failsOnly_bind (readRtpPadding_failsOnly _ _ _ _) fun _ _ => failsOnly_ok _

end Rtpkit

import Mathlib.Algebra.BigOperators.Group.Finset.Basic
import Rtpkit.Encap
import Rtpkit.EndAroundCarry

namespace Rtpkit

open Outcome Chunk EndAroundCarry

/-- Data of odd length is filled up with a zero byte. -/
def padOdd (data : Bytes) : Bytes := if data.length % 2 ≠ 0 then data ++ [0] else data

/-- The sum that a receiver computes: the 16-bit numbers that stand one after the other in the
data, with the carries added back. -/
def onesComplementSum (data : Bytes) : Nat :=
  fold (2 ^ 16) (∑ i ∈ Finset.range ((padOdd data).length / 2), halfAt (padOdd data) (2 * i))

theorem halfAt_cons_cons (high low : UInt8) (rest : Bytes) :
    halfAt (high :: low :: rest) 0 = (high.toNat <<< 8) ||| low.toNat := by
  have hlow : low.toNat < 2 ^ 8 := low.toNat_lt
  have hdecode : halfAt (high :: low :: rest) 0 = high.toNat * 2 ^ 8 + low.toNat := by
    simp [halfAt, slice, BigEndian.decode]
  rw [hdecode, ← Nat.shiftLeft_add_eq_or_of_lt hlow, Nat.shiftLeft_eq]

/-- The loop over the indices takes the numbers in turn. -/
theorem sum_checksumWords {data : Bytes} (h : data.length % 2 = 0) :
    (checksumWords data).sum = ∑ i ∈ Finset.range (data.length / 2), halfAt data (2 * i) := by
  fun_induction checksumWords data with
  | case1 high low rest ih =>
    have hlen : (high :: low :: rest).length / 2 = rest.length / 2 + 1 := by
      simp only [List.length_cons]
      omega
    have hrest : rest.length % 2 = 0 := by
      simp only [List.length_cons] at h
      omega
    have hnext : ∀ i, halfAt (high :: low :: rest) (2 * (i + 1)) = halfAt rest (2 * i) := by
      intro i
      have hdrop := halfAt_drop (high :: low :: rest) 2 (2 * i)
      rw [Nat.mul_add, Nat.add_comm, ← hdrop]
      rfl
    rw [List.sum_cons, ih hrest, hlen, Finset.sum_range_succ', Nat.mul_zero, halfAt_cons_cons,
      Nat.add_comm]
    simp only [hnext]
  | case2 data hshort =>
    match data with
    | [] => rfl
    | [_] => simp at h
    | high :: low :: rest => exact (hshort high low rest rfl).elim

theorem length_padOdd (data : Bytes) : (padOdd data).length % 2 = 0 := by
  rw [padOdd]
  split
  next hodd =>
    rw [List.length_append, List.length_singleton]
    omega
  next => omega

theorem foldCarries_eq (total : Nat) : foldCarries total = fold (2 ^ 16) total := by
  induction total using Nat.strongRecOn with
  | _ total ih =>
    have hhigh : total >>> 16 = total / 2 ^ 16 := Nat.shiftRight_eq_div_pow total 16
    have hlow : total &&& 0xFFFF = total % 2 ^ 16 := Nat.and_two_pow_sub_one_eq_mod total 16
    rw [foldCarries, fold, hhigh, hlow]
    by_cases hcarry : 2 ^ 16 ≤ total
    · have hpos : total / 2 ^ 16 ≠ 0 := by omega
      rw [dif_pos hpos, dif_pos ⟨by decide, hcarry⟩]
      exact ih _ (addBack_lt (by decide) hcarry)
    · have hzero : ¬total / 2 ^ 16 ≠ 0 := by omega
      rw [dif_neg hzero, dif_neg fun h => hcarry h.2]

theorem onesComplementSum_eq (data : Bytes) :
    onesComplementSum data = fold (2 ^ 16) (checksumWords (padOdd data)).sum := by
  rw [sum_checksumWords (length_padOdd data), onesComplementSum]

/-- The sum that the code computes is the one that a receiver does. -/
theorem foldCarries_checksumWords (data : Bytes) :
    foldCarries (checksumWords (padOdd data)).sum = onesComplementSum data := by
  rw [foldCarries_eq, onesComplementSum_eq]

theorem onesComplementSum_lt (data : Bytes) : onesComplementSum data < 2 ^ 16 := by
  rw [onesComplementSum_eq]
  exact (fold_spec (by decide) _).1

/-- The checksum is the complement of the sum. -/
theorem checksum16_eq (data : Bytes) : checksum16 data = 0xFFFF - onesComplementSum data := by
  have hlt := onesComplementSum_lt data
  have hunfold : checksum16 data =
      ((-(foldCarries (checksumWords (padOdd data)).sum : Int) - 1) % 0x10000).toNat := rfl
  rw [hunfold, foldCarries_checksumWords]
  omega

theorem checksumWords_append {x : Bytes} (hx : x.length % 2 = 0) (y : Bytes) :
    checksumWords (x ++ y) = checksumWords x ++ checksumWords y := by
  fun_induction checksumWords x with
  | case1 high low rest ih =>
    have hrest : rest.length % 2 = 0 := by
      simp only [List.length_cons] at hx
      omega
    exact congrArg _ (ih hrest)
  | case2 x hshort =>
    match x with
    | [] => rfl
    | [_] => simp at hx
    | high :: low :: rest => exact (hshort high low rest rfl).elim

theorem padOdd_append {x : Bytes} (hx : x.length % 2 = 0) (y : Bytes) :
    padOdd (x ++ y) = x ++ padOdd y := by
  have hlen : (x ++ y).length % 2 = y.length % 2 := by
    rw [List.length_append]
    omega
  rw [padOdd, padOdd, hlen]
  split
  next => exact List.append_assoc x y [0]
  next => rfl

theorem checksumWords_wire {n : Int} (h : Fmt.Fits .H n) (rest : Bytes) :
    checksumWords (Fmt.wire .H n ++ rest) = n.toNat :: checksumWords rest := by
  have hrange := Fmt.fits_H.mp h
  have hbytes : Fmt.wire .H n =
      [UInt8.ofNat (n.toNat / 256 ^ 1), UInt8.ofNat (n.toNat / 256 ^ 0)] := rfl
  have hlow : n.toNat / 256 ^ 0 % 256 < 2 ^ 8 := Nat.mod_lt _ (by decide)
  rw [hbytes, List.cons_append, List.cons_append, List.nil_append, checksumWords,
    UInt8.toNat_ofNat', UInt8.toNat_ofNat', ← Nat.shiftLeft_add_eq_or_of_lt hlow, Nat.shiftLeft_eq]
  congr 1
  omega

/-- The sum of data with a 16-bit field at an even offset, by the sum of the rest. -/
theorem onesComplementSum_field {x : Bytes} (hx : x.length % 2 = 0) {n : Int}
    (h : Fmt.Fits .H n) (y : Bytes) :
    onesComplementSum (x ++ (Fmt.wire .H n ++ y)) =
      fold (2 ^ 16) ((checksumWords x).sum + (checksumWords (padOdd y)).sum + n.toNat) := by
  rw [onesComplementSum_eq, padOdd_append hx, padOdd_append (by rw [Fmt.length_wire]; rfl),
    checksumWords_append hx, checksumWords_wire h, List.sum_append, List.sum_cons]
  congr 1
  omega

section Field

variable {x : Bytes} (hx : x.length % 2 = 0) (y : Bytes)

include hx

theorem checksum16_blank :
    checksum16 (x ++ (Fmt.wire .H 0 ++ y)) =
      2 ^ 16 - 1 - fold (2 ^ 16) ((checksumWords x).sum + (checksumWords (padOdd y)).sum) := by
  rw [checksum16_eq, onesComplementSum_field hx (by decide)]
  rfl

/-- Data with its checksum in the field that was zero sums up to all ones. -/
theorem onesComplementSum_checksum16 :
    onesComplementSum (x ++ (Fmt.wire .H (checksum16 (x ++ (Fmt.wire .H 0 ++ y))) ++ y)) =
      0xFFFF := by
  rw [checksum16_blank hx, onesComplementSum_field hx (Fmt.fits_H.mpr (by omega)),
    Int.toNat_natCast]
  exact fold_add_complement (by decide) _

/-- The same where a checksum of zero is sent as all ones. -/
theorem onesComplementSum_nonzero_checksum16 :
    onesComplementSum (x ++ (Fmt.wire .H
      (if checksum16 (x ++ (Fmt.wire .H 0 ++ y)) ≠ 0 then checksum16 (x ++ (Fmt.wire .H 0 ++ y))
        else 0xFFFF : Nat) ++ y)) = 0xFFFF := by
  by_cases hzero : checksum16 (x ++ (Fmt.wire .H 0 ++ y)) ≠ 0
  · rw [if_pos hzero]
    exact onesComplementSum_checksum16 hx y
  · rw [if_neg hzero, onesComplementSum_field hx (by decide), Int.toNat_natCast]
    have hfold := checksum16_blank hx y
    have hlt := (fold_spec (show 1 < 2 ^ 16 by decide)
      ((checksumWords x).sum + (checksumWords (padOdd y)).sum)).1
    -- the other words sum up to all ones already, so they are a multiple of 65535
    have htop := (fold_eq_top_iff (show 1 < 2 ^ 16 by decide)).mp
      (show fold (2 ^ 16) ((checksumWords x).sum + (checksumWords (padOdd y)).sum) = 2 ^ 16 - 1 by
        omega)
    refine (fold_eq_top_iff (by decide)).mpr ⟨by omega, ?_⟩
    omega

end Field

end Rtpkit

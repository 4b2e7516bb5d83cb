import Mathlib.Data.List.Basic
import Mathlib.Tactic.Ring

namespace BigEndian

/-- The low `k` bytes of `n`, most significant first. -/
def encode : Nat → Nat → List UInt8
  | 0, _ => []
  | k + 1, n => UInt8.ofNat (n / 256 ^ k) :: encode k n

/-- The number whose big-endian digits are the given bytes. -/
def decode : List UInt8 → Nat
  | [] => 0
  | b :: bs => b.toNat * 256 ^ bs.length + decode bs

@[simp] theorem length_encode (k n : Nat) : (encode k n).length = k := by
  induction k with
  | zero => rfl
  | succ k ih => simp [encode, ih]

theorem decode_lt (bs : List UInt8) : decode bs < 256 ^ bs.length := by
  induction bs with
  | nil => simp [decode]
  | cons b bs ih =>
    have hb : b.toNat + 1 ≤ 256 := b.toNat_lt
    calc decode (b :: bs) = b.toNat * 256 ^ bs.length + decode bs := rfl
      _ < b.toNat * 256 ^ bs.length + 256 ^ bs.length := by omega
      _ = (b.toNat + 1) * 256 ^ bs.length := by ring
      _ ≤ 256 * 256 ^ bs.length := Nat.mul_le_mul_right _ hb
      _ = 256 ^ (b :: bs).length := by simp [Nat.pow_succ, Nat.mul_comm]

theorem decode_encode_mod (k n : Nat) : decode (encode k n) = n % 256 ^ k := by
  induction k with
  | zero => simp [encode, decode, Nat.mod_one]
  | succ k ih =>
    have hd : (UInt8.ofNat (n / 256 ^ k)).toNat = n / 256 ^ k % 256 := by simp
    rw [encode, decode, length_encode, ih, hd, Nat.pow_succ, Nat.mod_mul]
    ring

/-- A number that fits `k` bytes is read back from them. -/
theorem decode_encode {k n : Nat} (h : n < 256 ^ k) : decode (encode k n) = n := by
  rw [decode_encode_mod, Nat.mod_eq_of_lt h]

theorem decode_injective {xs ys : List UInt8} (hl : xs.length = ys.length)
    (h : decode xs = decode ys) : xs = ys := by
  induction xs generalizing ys with
  | nil => exact (List.length_eq_zero_iff.mp hl.symm).symm
  | cons x xs ih =>
    cases ys with
    | nil => simp at hl
    | cons y ys =>
      have ht : xs.length = ys.length := by simpa using hl
      have hx := decode_lt xs
      have hy := decode_lt ys
      simp only [decode, ht] at h hx
      have hpos : 0 < 256 ^ ys.length := Nat.pow_pos (by omega)
      have heq : x.toNat = y.toNat := by
        have hdx := Nat.mul_add_div hpos x.toNat (decode xs)
        have hdy := Nat.mul_add_div hpos y.toNat (decode ys)
        rw [Nat.div_eq_of_lt hx] at hdx
        rw [Nat.div_eq_of_lt hy] at hdy
        rw [Nat.mul_comm, Nat.mul_comm y.toNat] at h
        rw [h] at hdx
        omega
      rw [heq] at h
      rw [UInt8.toNat_inj.mp heq, ih ht (by omega)]

/-- Bytes are the encoding of the number they decode to. -/
theorem encode_decode (bs : List UInt8) : encode bs.length (decode bs) = bs :=
  decode_injective (length_encode _ _) (decode_encode (decode_lt bs))

end BigEndian

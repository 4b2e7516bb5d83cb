import Rtpkit.Struct

namespace Rtpkit

open Outcome Chunk

/-- The prefixes `>` and `<` of a `struct` format. -/
inductive ByteOrder
  | big
  | little
  deriving DecidableEq, Repr

namespace ByteOrder

/-- The bytes of one number, most significant first, as they are laid out. -/
def arrange : ByteOrder → Bytes → Bytes
  | .big, bs => bs
  | .little, bs => bs.reverse

@[simp] theorem length_arrange (order : ByteOrder) (bs : Bytes) :
    (order.arrange bs).length = bs.length := by
  cases order with
  | big => rfl
  | little => exact List.length_reverse

@[simp] theorem arrange_arrange (order : ByteOrder) (bs : Bytes) :
    order.arrange (order.arrange bs) = bs := by
  cases order with
  | big => rfl
  | little => exact List.reverse_reverse bs

end ByteOrder

def Fmt.wireIn (order : ByteOrder) (f : Fmt) (n : Int) : Bytes := order.arrange (f.wire n)

/-- A signed number that fits `size` bytes. -/
def signedWire (order : ByteOrder) (size : Nat) (n : Int) : Bytes :=
  order.arrange (BigEndian.encode size (n % 256 ^ size).toNat)

def packOneIn (order : ByteOrder) (arg : Fmt × Int) : Except Error Bytes := do
  require (arg.1.Fits arg.2) (arg.1.rangeError arg.2)
  pure (arg.1.wireIn order arg.2)

/-- `struct.pack` in a byte order, with one format character for each value. -/
def packIn (order : ByteOrder) (args : List (Fmt × Int)) : Except Error Bytes := do
  let parts ← args.mapM (packOneIn order)
  pure parts.flatten

/-- `struct.unpack_from` in a byte order, for one format character. -/
def unpackIn (order : ByteOrder) (f : Fmt) (data : Bytes) (off : Nat) : Except Error Nat := do
  require (off + f.size ≤ data.length)
    (.structError s!"unpack_from requires a buffer of at least {off + f.size} bytes for unpacking {f.size} bytes at offset {off} (actual buffer size is {data.length})")
  pure (BigEndian.decode (order.arrange (slice data off (off + f.size))))

section Wire

variable {order : ByteOrder} {f : Fmt}

@[simp] theorem Fmt.length_wireIn (order : ByteOrder) (f : Fmt) (n : Int) :
    (f.wireIn order n).length = f.size := by
  rw [Fmt.wireIn, ByteOrder.length_arrange, Fmt.length_wire]

@[simp] theorem length_signedWire (order : ByteOrder) (size : Nat) (n : Int) :
    (signedWire order size n).length = size := by
  rw [signedWire, ByteOrder.length_arrange, BigEndian.length_encode]

theorem packOneIn_eq_ok {arg : Fmt × Int} {b : Bytes} :
    packOneIn order arg = .ok b ↔ arg.1.Fits arg.2 ∧ b = arg.1.wireIn order arg.2 := by
  unfold packOneIn
  exact require_pure_eq_ok

theorem packIn_eq_ok {args : List (Fmt × Int)} {b : Bytes} :
    packIn order args = .ok b ↔
      (∀ arg ∈ args, arg.1.Fits arg.2) ∧ b = args.flatMap fun arg => arg.1.wireIn order arg.2 := by
  unfold packIn
  rw [bind_eq_ok]
  constructor
  · rintro ⟨parts, hm, hp⟩
    obtain ⟨hf, rfl⟩ := (mapM_eq_ok_of_spec fun x y => packOneIn_eq_ok).mp hm
    exact ⟨hf, (pure_eq_ok.mp hp).symm⟩
  · rintro ⟨hf, rfl⟩
    exact ⟨_, (mapM_eq_ok_of_spec fun x y => packOneIn_eq_ok).mpr ⟨hf, rfl⟩, rfl⟩

theorem packIn_failsOnly (args : List (Fmt × Int)) :
    FailsOnly IsStructError (packIn order args) := by
  refine failsOnly_bind (failsOnly_mapM fun arg _ => ?_) fun _ _ => failsOnly_ok _
  exact failsOnly_bind (failsOnly_require (arg.1.isStructError_rangeError arg.2)) fun _ _ => failsOnly_ok _

theorem unpackIn_eq_ok {data : Bytes} {off n : Nat} :
    unpackIn order f data off = .ok n ↔ off + f.size ≤ data.length ∧
      n = BigEndian.decode (order.arrange (slice data off (off + f.size))) := by
  unfold unpackIn
  exact require_pure_eq_ok

theorem exists_unpackIn (order : ByteOrder) {data : Bytes} {off : Nat}
    (h : off + f.size ≤ data.length) : ∃ n, unpackIn order f data off = .ok n :=
  ⟨_, unpackIn_eq_ok.mpr ⟨h, rfl⟩⟩

theorem unpackIn_drop {data : Bytes} {off i : Nat} (h : off + i + f.size ≤ data.length) :
    unpackIn order f (data.drop off) i = unpackIn order f data (off + i) := by
  have hdrop : i + f.size ≤ (data.drop off).length := by
    rw [List.length_drop]
    omega
  rw [unpackIn_eq_ok.mpr ⟨hdrop, rfl⟩, unpackIn_eq_ok.mpr ⟨h, rfl⟩, slice_drop, Nat.add_assoc]

theorem unpackIn_append_left {x : Bytes} {i : Nat} (h : i + f.size ≤ x.length) (y : Bytes) :
    unpackIn order f (x ++ y) i = unpackIn order f x i := by
  have happ : i + f.size ≤ (x ++ y).length := by
    rw [List.length_append]
    omega
  rw [unpackIn_eq_ok.mpr ⟨happ, rfl⟩, unpackIn_eq_ok.mpr ⟨h, rfl⟩, slice_append_left h]

/-- The number read at an offset fits its format. -/
theorem unpackIn_fits {data : Bytes} {off n : Nat} (h : unpackIn order f data off = .ok n) :
    f.Fits n := by
  obtain ⟨hle, rfl⟩ := unpackIn_eq_ok.mp h
  have hlt := BigEndian.decode_lt (order.arrange (slice data off (off + f.size)))
  rw [ByteOrder.length_arrange, length_slice_add hle] at hlt
  exact ⟨by omega, by exact_mod_cast hlt⟩

/-- A number whose bytes stand at an offset is read there. -/
theorem unpackIn_of_standsAt {data : Bytes} {off : Nat} {value : Int}
    (hf : f.Fits value) (h : StandsAt data off (f.wireIn order value)) :
    unpackIn order f data off = .ok value.toNat := by
  have hle := h.le_length
  have heq := h.slice_eq
  rw [Fmt.length_wireIn] at hle heq
  have hlt : ((value.toNat : Nat) : Int) < ((256 ^ f.size : Nat) : Int) := by
    rw [Int.toNat_of_nonneg hf.1]
    exact_mod_cast hf.2
  refine unpackIn_eq_ok.mpr ⟨hle, ?_⟩
  rw [heq, Fmt.wireIn, ByteOrder.arrange_arrange, Fmt.wire,
    BigEndian.decode_encode (Int.ofNat_lt.mp hlt)]

end Wire

end Rtpkit

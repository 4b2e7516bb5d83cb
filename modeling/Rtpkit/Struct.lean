import Rtpkit.BigEndian
import Rtpkit.Chunk
import Rtpkit.Errors

namespace Rtpkit

open Outcome Chunk

/-- The unsigned format characters of `struct` that the code uses, all with `!`. -/
inductive Fmt
  | B
  | H
  | I
  deriving DecidableEq, Repr

def Fmt.size : Fmt → Nat
  | .B => 1
  | .H => 2
  | .I => 4

def Fmt.rangeError (f : Fmt) (n : Int) : Error := .structError (.outOfRange f.size n)

def IsStructError (e : Error) : Prop := ∃ detail, e = .structError detail

def Fmt.Fits (f : Fmt) (n : Int) : Prop := 0 ≤ n ∧ n < 256 ^ f.size

instance (f : Fmt) (n : Int) : Decidable (f.Fits n) := inferInstanceAs (Decidable (_ ∧ _))

/-- The bytes of a number that fits its format. -/
def Fmt.wire (f : Fmt) (n : Int) : Bytes := BigEndian.encode f.size n.toNat

def packOne (arg : Fmt × Int) : Except Error Bytes := do
  require (arg.1.Fits arg.2) (arg.1.rangeError arg.2)
  pure (arg.1.wire arg.2)

/-- `struct.pack` with one format character for each value. -/
def structPack (args : List (Fmt × Int)) : Except Error Bytes := do
  let parts ← args.mapM packOne
  pure parts.flatten

/-- `data[i]` for an index that is not negative. -/
def getByte (data : Bytes) (i : Nat) : Except Error Nat :=
  match data[i]? with
  | some b => .ok b.toNat
  | none => .error .indexError

/-- `struct.unpack_from` for one format character. -/
def unpackFrom (f : Fmt) (data : Bytes) (off : Nat) : Except Error Nat := do
  require (off + f.size ≤ data.length)
    (.structError s!"unpack_from requires a buffer of at least {off + f.size} bytes for unpacking {f.size} bytes at offset {off} (actual buffer size is {data.length})")
  pure (BigEndian.decode (slice data off (off + f.size)))

def byteAt (data : Bytes) (i : Nat) : Nat := (data.getD i 0).toNat

def halfAt (data : Bytes) (i : Nat) : Nat := BigEndian.decode (slice data i (i + 2))

def quadAt (data : Bytes) (i : Nat) : Nat := BigEndian.decode (slice data i (i + 4))

/-- `struct.unpack_from` for `n` repetitions of `I`. -/
def unpackMany (n : Nat) (data : Bytes) (off : Nat) : Except Error (List Int) :=
  (List.range n).mapM fun i => do
    let value ← unpackFrom .I data (off + i * 4)
    pure (value : Int)

@[simp] theorem Fmt.length_wire (f : Fmt) (n : Int) : (f.wire n).length = f.size :=
  BigEndian.length_encode _ _

@[simp] theorem Fmt.size_B : Fmt.size .B = 1 := rfl

@[simp] theorem Fmt.size_H : Fmt.size .H = 2 := rfl

@[simp] theorem Fmt.size_I : Fmt.size .I = 4 := rfl

theorem Fmt.fits_B {n : Int} : Fmt.Fits .B n ↔ 0 ≤ n ∧ n ≤ 255 := by
  simp only [Fmt.Fits, Fmt.size]; omega

theorem Fmt.fits_H {n : Int} : Fmt.Fits .H n ↔ 0 ≤ n ∧ n ≤ 0xFFFF := by
  simp only [Fmt.Fits, Fmt.size]; omega

theorem Fmt.fits_I {n : Int} : Fmt.Fits .I n ↔ 0 ≤ n ∧ n ≤ 0xFFFFFFFF := by
  simp only [Fmt.Fits, Fmt.size]; omega

theorem packOne_eq_ok {arg : Fmt × Int} {b : Bytes} :
    packOne arg = .ok b ↔ arg.1.Fits arg.2 ∧ b = arg.1.wire arg.2 := by
  unfold packOne
  exact require_pure_eq_ok

/-- Packing succeeds exactly when every value fits, and writes them one after the other. -/
theorem structPack_eq_ok {args : List (Fmt × Int)} {b : Bytes} :
    structPack args = .ok b ↔
      (∀ arg ∈ args, arg.1.Fits arg.2) ∧ b = args.flatMap fun arg => arg.1.wire arg.2 := by
  unfold structPack
  rw [bind_eq_ok]
  constructor
  · rintro ⟨parts, hm, hp⟩
    obtain ⟨hf, rfl⟩ := (mapM_eq_ok_of_spec fun x y => packOne_eq_ok).mp hm
    exact ⟨hf, (pure_eq_ok.mp hp).symm⟩
  · rintro ⟨hf, rfl⟩
    exact ⟨_, (mapM_eq_ok_of_spec fun x y => packOne_eq_ok).mpr ⟨hf, rfl⟩, rfl⟩

theorem Fmt.isStructError_rangeError (f : Fmt) (n : Int) : IsStructError (f.rangeError n) :=
  ⟨_, rfl⟩

theorem structPack_failsOnly (args : List (Fmt × Int)) :
    FailsOnly IsStructError (structPack args) := by
  refine failsOnly_bind (failsOnly_mapM fun arg _ => ?_) fun _ _ => failsOnly_ok _
  exact failsOnly_bind (failsOnly_require (arg.1.isStructError_rangeError arg.2)) fun _ _ => failsOnly_ok _

theorem getByte_eq_ok {data : Bytes} {i n : Nat} :
    getByte data i = .ok n ↔ ∃ b, data[i]? = some b ∧ b.toNat = n := by
  unfold getByte
  cases h : data[i]? with
  | none => simp
  | some b => simp

/-- The byte read at an offset stands there. -/
theorem getByte_spec {data : Bytes} {i n : Nat} (h : getByte data i = .ok n) :
    n < 256 ∧ StandsAt data i (Fmt.wire .B n) := by
  obtain ⟨b, hb, rfl⟩ := getByte_eq_ok.mp h
  have hbyte : Fmt.wire .B (b.toNat : Nat) = [b] := by
    simp [Fmt.wire, BigEndian.encode]
  exact ⟨b.toNat_lt, by rw [hbyte]; exact standsAt_singleton.mpr hb⟩

theorem getByte_lt {data : Bytes} {i n : Nat} (h : getByte data i = .ok n) : n < 256 := by
  obtain ⟨b, _, rfl⟩ := getByte_eq_ok.mp h
  exact b.toNat_lt

theorem unpackFrom_eq_ok {f : Fmt} {data : Bytes} {off n : Nat} :
    unpackFrom f data off = .ok n ↔
      off + f.size ≤ data.length ∧ n = BigEndian.decode (slice data off (off + f.size)) := by
  unfold unpackFrom
  exact require_pure_eq_ok

theorem getByte_drop (data : Bytes) (off i : Nat) :
    getByte (data.drop off) i = getByte data (off + i) := by
  unfold getByte
  rw [List.getElem?_drop]

theorem getByte_append_left {x : Bytes} {i : Nat} (h : i < x.length) (y : Bytes) :
    getByte (x ++ y) i = getByte x i := by
  unfold getByte
  rw [List.getElem?_append_left h]

theorem unpackFrom_drop {f : Fmt} {data : Bytes} {off i : Nat}
    (h : off + i + f.size ≤ data.length) :
    unpackFrom f (data.drop off) i = unpackFrom f data (off + i) := by
  have hdrop : i + f.size ≤ (data.drop off).length := by
    rw [List.length_drop]
    omega
  rw [unpackFrom_eq_ok.mpr ⟨hdrop, rfl⟩, unpackFrom_eq_ok.mpr ⟨h, rfl⟩, slice_drop, Nat.add_assoc]

theorem unpackFrom_append_left {f : Fmt} {x : Bytes} {i : Nat} (h : i + f.size ≤ x.length)
    (y : Bytes) : unpackFrom f (x ++ y) i = unpackFrom f x i := by
  have happ : i + f.size ≤ (x ++ y).length := by
    rw [List.length_append]
    omega
  rw [unpackFrom_eq_ok.mpr ⟨happ, rfl⟩, unpackFrom_eq_ok.mpr ⟨h, rfl⟩, slice_append_left h]

/-- A read within the data does not fail. -/
theorem unpackFrom_failsOnly {allowed : Error → Prop} {f : Fmt} {data : Bytes} {off : Nat}
    (h : off + f.size ≤ data.length) : FailsOnly allowed (unpackFrom f data off) := by
  rw [unpackFrom_eq_ok.mpr ⟨h, rfl⟩]
  exact failsOnly_ok _

theorem getByte_failsOnly {allowed : Error → Prop} {data : Bytes} {i : Nat}
    (h : i < data.length) : FailsOnly allowed (getByte data i) := by
  rw [getByte_eq_ok.mpr ⟨data[i], List.getElem?_eq_getElem h, rfl⟩]
  exact failsOnly_ok _

theorem unpackMany_failsOnly {allowed : Error → Prop} {n : Nat} {data : Bytes} {off : Nat}
    (h : off + n * 4 ≤ data.length) : FailsOnly allowed (unpackMany n data off) := by
  refine failsOnly_mapM fun i hi => failsOnly_bind (unpackFrom_failsOnly ?_) fun _ _ => failsOnly_ok _
  have hlt := List.mem_range.mp hi
  simp only [Fmt.size]
  omega

theorem Fmt.wire_decode {f : Fmt} {bs : Bytes} (h : bs.length = f.size) :
    f.wire (BigEndian.decode bs : Nat) = bs := by
  simp only [Fmt.wire, Int.toNat_natCast, ← h]
  exact BigEndian.encode_decode bs

/-- The number read at an offset fits its format, and its bytes stand there. -/
theorem unpackFrom_spec {f : Fmt} {data : Bytes} {off n : Nat}
    (h : unpackFrom f data off = .ok n) : f.Fits n ∧ StandsAt data off (f.wire n) := by
  obtain ⟨hle, rfl⟩ := unpackFrom_eq_ok.mp h
  have hlen : (slice data off (off + f.size)).length = f.size := length_slice_add hle
  have hlt := BigEndian.decode_lt (slice data off (off + f.size))
  rw [hlen] at hlt
  refine ⟨⟨by omega, by exact_mod_cast hlt⟩, ?_⟩
  rw [Fmt.wire_decode hlen]
  exact standsAt_slice _ (by omega) hle

/-- A number whose bytes stand at an offset is read there. -/
theorem unpackFrom_of_standsAt {f : Fmt} {data : Bytes} {off : Nat} {value : Int}
    (hf : f.Fits value) (h : StandsAt data off (f.wire value)) :
    ∃ n : Nat, unpackFrom f data off = .ok n ∧ (n : Int) = value := by
  have hle := h.le_length
  have heq := h.slice_eq
  rw [Fmt.length_wire] at hle heq
  have hlt : ((value.toNat : Nat) : Int) < ((256 ^ f.size : Nat) : Int) := by
    rw [Int.toNat_of_nonneg hf.1]
    exact_mod_cast hf.2
  refine ⟨value.toNat, unpackFrom_eq_ok.mpr ⟨hle, ?_⟩, Int.toNat_of_nonneg hf.1⟩
  rw [heq, Fmt.wire, BigEndian.decode_encode (Int.ofNat_lt.mp hlt)]

/-- One byte whose value stands at an offset is read there. -/
theorem getByte_of_standsAt {data : Bytes} {off : Nat} {value : Int}
    (hf : Fmt.Fits .B value) (h : StandsAt data off (Fmt.wire .B value)) :
    ∃ n : Nat, getByte data off = .ok n ∧ (n : Int) = value := by
  have hrange := Fmt.fits_B.mp hf
  have hbyte : Fmt.wire .B value = [UInt8.ofNat value.toNat] := by
    simp [Fmt.wire, BigEndian.encode]
  rw [hbyte, standsAt_singleton] at h
  refine ⟨value.toNat, getByte_eq_ok.mpr ⟨_, h, ?_⟩, Int.toNat_of_nonneg hf.1⟩
  rw [UInt8.toNat_ofNat']
  omega

theorem length_flatten_words (words : List Int) :
    (words.map (Fmt.wire .I)).flatten.length = words.length * 4 := by
  induction words with
  | nil => rfl
  | cons w words ih =>
    simp only [List.map_cons, List.flatten_cons, List.length_append, ih, Fmt.length_wire,
      Fmt.size_I, List.length_cons]
    omega

theorem unpackMany_of_standsAt {words : List Int} {data : Bytes} {off : Nat}
    (hw : ∀ w ∈ words, Fmt.Fits .I w)
    (h : StandsAt data off (words.map (Fmt.wire .I)).flatten) :
    unpackMany words.length data off = .ok words := by
  rw [unpackMany, mapM_eq_ok]
  apply List.forall₂_iff_get.mpr
  refine ⟨by simp, ?_⟩
  intro i h₁ h₂
  have hwidth : ∀ c ∈ words.map (Fmt.wire .I), c.length = 4 := by
    intro c hc
    obtain ⟨w, _, rfl⟩ := List.mem_map.mp hc
    simp
  have hword := h.trans (standsAt_flatten hwidth (i := i) (by simpa using h₂))
  rw [List.getElem_map] at hword
  obtain ⟨n, rn, en⟩ := unpackFrom_of_standsAt (hw _ (List.getElem_mem h₂)) hword
  simp only [List.get_eq_getElem, List.getElem_range, rn, bind_ok, en]
  rfl

/-- Repeated words fit their format and their bytes stand one after the other. -/
theorem unpackMany_spec {n : Nat} {data : Bytes} {off : Nat} {words : List Int}
    (h : unpackMany n data off = .ok words) (hoff : off ≤ data.length) :
    words.length = n ∧ (∀ w ∈ words, Fmt.Fits .I w) ∧
      StandsAt data off (words.map (Fmt.wire .I)).flatten := by
  have hall := mapM_eq_ok.mp h
  have hlen : words.length = n := by simpa using hall.length_eq.symm
  have heach : ∀ i (hi : i < words.length),
      Fmt.Fits .I words[i] ∧ StandsAt data (off + i * 4) (Fmt.wire .I words[i]) := by
    intro i hi
    have hread := (List.forall₂_iff_get.mp hall).2 i (by simpa [hlen] using hi) hi
    obtain ⟨value, hv, hw⟩ := bind_eq_ok.mp hread
    have heq := pure_eq_ok.mp hw
    simp only [List.get_eq_getElem, List.getElem_range] at hv heq
    rw [← heq]
    exact unpackFrom_spec hv
  refine ⟨hlen, ?_, ?_⟩
  · intro w hw
    obtain ⟨i, hi, rfl⟩ := List.mem_iff_getElem.mp hw
    exact (heach i hi).1
  · apply standsAt_flatten_of_each 4 _ _ hoff
    · intro c hc
      obtain ⟨w, _, rfl⟩ := List.mem_map.mp hc
      simp
    · intro i hi
      simpa using (heach i (by simpa using hi)).2

theorem getByte_byteAt {data : Bytes} {i : Nat} (h : i < data.length) :
    getByte data i = .ok (byteAt data i) := by
  refine getByte_eq_ok.mpr ⟨data[i], List.getElem?_eq_getElem h, ?_⟩
  simp [byteAt, h]

theorem unpackFrom_halfAt {data : Bytes} {i : Nat} (h : i + 2 ≤ data.length) :
    unpackFrom .H data i = .ok (halfAt data i) :=
  unpackFrom_eq_ok.mpr ⟨h, rfl⟩

/-- A 16-bit number whose bytes stand at an offset is the number there. -/
theorem halfAt_of_standsAt {data : Bytes} {off : Nat} {value : Nat} (hf : value ≤ 0xFFFF)
    (h : StandsAt data off (Fmt.wire .H value)) : halfAt data off = value := by
  obtain ⟨n, hread, hn⟩ := unpackFrom_of_standsAt (Fmt.fits_H.mpr (by omega)) h
  rw [unpackFrom_eq_ok] at hread
  exact hread.2.symm.trans (by exact_mod_cast hn)

theorem byteAt_of_standsAt {data : Bytes} {off : Nat} {value : Nat} (hf : value ≤ 0xFF)
    (h : StandsAt data off (Fmt.wire .B value)) : byteAt data off = value := by
  obtain ⟨n, hread, hn⟩ := getByte_of_standsAt (Fmt.fits_B.mpr (by omega)) h
  have hle := h.le_length
  rw [Fmt.length_wire, Fmt.size_B] at hle
  rw [getByte_byteAt (by omega)] at hread
  exact (Except.ok.inj hread).trans (by exact_mod_cast hn)

theorem halfAt_slice {data : Bytes} {a b i : Nat} (h : a + i + 2 ≤ b) :
    halfAt (slice data a b) i = halfAt data (a + i) := by
  rw [halfAt, halfAt, slice_slice data a b i (i + 2) (by omega), Nat.add_assoc]

theorem halfAt_drop (data : Bytes) (off i : Nat) :
    halfAt (data.drop off) i = halfAt data (off + i) := by
  rw [halfAt, halfAt, slice_drop, Nat.add_assoc]

theorem unpackFrom_quadAt {data : Bytes} {i : Nat} (h : i + 4 ≤ data.length) :
    unpackFrom .I data i = .ok (quadAt data i) :=
  unpackFrom_eq_ok.mpr ⟨h, rfl⟩

theorem unpackMany_quadAt {n : Nat} {data : Bytes} {off : Nat} (h : off + n * 4 ≤ data.length) :
    unpackMany n data off = .ok ((List.range n).map fun i => (quadAt data (off + i * 4) : Int)) := by
  refine mapM_eq_ok.mpr (List.forall₂_map_right_iff.mpr (List.forall₂_same.mpr fun i hi => ?_))
  have hlt := List.mem_range.mp hi
  rw [unpackFrom_quadAt (by omega)]
  rfl

end Rtpkit

import Rtpkit.Chunk

open Chunk

/-- A view of the entries of a buffer from `start` up to `stop`. -/
structure MemoryView (α : Type) where
  buffer : List α
  start : Nat
  stop : Nat
  start_le_stop : start ≤ stop
  stop_le_length : stop ≤ buffer.length
  deriving DecidableEq

namespace MemoryView

variable {α : Type}

def ofList (buffer : List α) : MemoryView α :=
  ⟨buffer, 0, buffer.length, Nat.zero_le _, Nat.le_refl _⟩

def length (v : MemoryView α) : Nat := v.stop - v.start

def toList (v : MemoryView α) : List α := Chunk.slice v.buffer v.start v.stop

/-- `v[a:b]` for bounds that are not negative. -/
def slice (v : MemoryView α) (a b : Nat) : MemoryView α where
  buffer := v.buffer
  start := v.start + min a v.length
  stop := v.start + max (min a v.length) (min b v.length)
  start_le_stop := by omega
  stop_le_length := by
    have hstart := v.start_le_stop
    have hstop := v.stop_le_length
    rw [length]
    omega

theorem ext_stop {v w : MemoryView α} (hbuffer : v.buffer = w.buffer) (hstart : v.start = w.start)
    (hstop : v.stop = w.stop) : v = w := by
  cases v
  cases w
  cases hbuffer
  cases hstart
  cases hstop
  rfl

@[simp] theorem length_toList (v : MemoryView α) : v.toList.length = v.length := by
  have hstop := v.stop_le_length
  rw [toList, length_slice, length]
  omega

@[simp] theorem toList_ofList (buffer : List α) : (ofList buffer).toList = buffer :=
  slice_zero_length buffer

@[simp] theorem length_ofList (buffer : List α) : (ofList buffer).length = buffer.length := rfl

@[simp] theorem buffer_slice (v : MemoryView α) (a b : Nat) : (v.slice a b).buffer = v.buffer := rfl

@[simp] theorem slice_zero_length_self (v : MemoryView α) : v.slice 0 v.length = v := by
  have hstart := v.start_le_stop
  apply ext_stop
  · rfl
  · simp [slice]
  · simp only [slice, length]
    omega

section Bounds

variable {v : MemoryView α} {a b : Nat}

theorem start_slice (ha : a ≤ v.length) : (v.slice a b).start = v.start + a := by
  simp only [slice]
  omega

theorem stop_slice (hab : a ≤ b) (hb : b ≤ v.length) : (v.slice a b).stop = v.start + b := by
  simp only [slice]
  omega

theorem length_slice_eq (hab : a ≤ b) (hb : b ≤ v.length) : (v.slice a b).length = b - a := by
  rw [length, start_slice (Nat.le_trans hab hb), stop_slice hab hb]
  omega

theorem toList_slice (hab : a ≤ b) (hb : b ≤ v.length) :
    (v.slice a b).toList = Chunk.slice v.toList a b := by
  have hle : v.start + b ≤ v.stop := by
    have hstart := v.start_le_stop
    rw [length] at hb
    omega
  rw [toList, toList, start_slice (Nat.le_trans hab hb), stop_slice hab hb, slice_slice _ _ _ _ _ hle]
  rfl

/-- A slice of a slice is a slice of the view. -/
theorem slice_slice_eq {c d : Nat} (hab : a ≤ b) (hb : b ≤ v.length) (hcd : c ≤ d)
    (hd : d ≤ b - a) : (v.slice a b).slice c d = v.slice (a + c) (a + d) := by
  have hlen := length_slice_eq hab hb
  apply ext_stop
  · rfl
  · rw [start_slice (by omega), start_slice (by omega), start_slice (by omega)]
    omega
  · rw [stop_slice hcd (by omega), stop_slice (by omega) (by omega), start_slice (by omega)]
    omega

end Bounds

end MemoryView

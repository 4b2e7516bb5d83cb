import Rtpkit.Errors
import Mathlib.Tactic.ByContra

namespace Rtpkit

def isAscii (c : Char) : Bool := c.toNat < 128

/-- `name.encode("ascii")`, which raises when some character is not ASCII. -/
def encodeAscii (name : String) : Option Bytes :=
  if name.toList.all isAscii then some (name.toList.map fun c => UInt8.ofNat c.toNat) else none

/-- `bytes.decode("ascii", errors="replace")`. -/
def decodeAscii (data : Bytes) : String :=
  String.ofList (data.map fun b => if b.toNat < 128 then Char.ofNat b.toNat else Char.ofNat 0xFFFD)

def hexDigit (n : Nat) : Char := "0123456789abcdef".toList.getD n '0'

/-- One character of `repr`; characters outside ASCII are taken to be printable. -/
def reprChar (quote c : Char) : List Char :=
  if c = quote ∨ c = '\\' then ['\\', c]
  else if c = '\n' then ['\\', 'n']
  else if c = '\r' then ['\\', 'r']
  else if c = '\t' then ['\\', 't']
  else if c.toNat < 32 ∨ c.toNat = 127 then
    ['\\', 'x', hexDigit (c.toNat / 16), hexDigit (c.toNat % 16)]
  else [c]

/-- `repr` of a string, for the texts of errors. -/
def strRepr (name : String) : String :=
  let quote := if '\'' ∈ name.toList ∧ '"' ∉ name.toList then '"' else '\''
  String.ofList (quote :: name.toList.flatMap (reprChar quote) ++ [quote])

example : strRepr "a'b\n" = "\"a'b\\n\"" := by decide

/-- ASCII text is decoded to what was encoded. -/
theorem decodeAscii_encodeAscii {name : String} {b : Bytes} (h : encodeAscii name = some b) :
    decodeAscii b = name := by
  unfold encodeAscii at h
  split at h
  next hall =>
    cases Option.some.inj h
    have hsame : ∀ c ∈ name.toList, (if (UInt8.ofNat c.toNat).toNat < 128
        then Char.ofNat (UInt8.ofNat c.toNat).toNat else Char.ofNat 0xFFFD) = c := by
      intro c hc
      have hlt : c.toNat < 128 := by simpa [isAscii] using List.all_eq_true.mp hall c hc
      have hval : (UInt8.ofNat c.toNat).toNat = c.toNat := by
        rw [UInt8.toNat_ofNat']
        omega
      rw [hval, if_pos hlt, Char.ofNat_toNat]
    rw [decodeAscii, List.map_map]
    have hmap := List.map_congr_left hsame
    rw [List.map_id'] at hmap
    exact (congrArg String.ofList hmap).trans (String.ofList_toList)
  next => simp at h

theorem toNat_ofNat_ascii {n : Nat} (h : n < 128) : (Char.ofNat n).toNat = n := by
  have hvalid : n.isValidChar := Or.inl (by omega)
  rw [Char.ofNat, dif_pos hvalid]
  rfl

/-- Bytes whose decoding is ASCII, so that nothing was replaced, are its encoding. -/
theorem encodeAscii_decodeAscii {data : Bytes} (h : (decodeAscii data).toList.all isAscii = true) :
    encodeAscii (decodeAscii data) = some data := by
  have hsmall : ∀ b ∈ data, b.toNat < 128 := by
    intro b hb
    by_contra hlarge
    have hmem : Char.ofNat 0xFFFD ∈ (decodeAscii data).toList := by
      simp only [decodeAscii, String.toList_ofList, List.mem_map]
      exact ⟨b, hb, if_neg hlarge⟩
    have hbad := List.all_eq_true.mp h _ hmem
    revert hbad
    decide
  rw [encodeAscii, if_pos h]
  simp only [decodeAscii, String.toList_ofList, List.map_map, Option.some.injEq]
  calc _ = data.map id := by
        apply List.map_congr_left
        intro b hb
        simp [hsmall b hb, toNat_ofNat_ascii]
    _ = data := List.map_id data

end Rtpkit

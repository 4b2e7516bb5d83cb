import Rtpkit.Bisect
import Rtpkit.ByteOrder

namespace Rtpkit

open Outcome

namespace G711

/-- The exceptions of the interpreter that the codec could let through. -/
inductive CodecError
  | overflowError
  | valueError
  | indexError
  deriving DecidableEq, Repr

def bias : Nat := 0x84

def ulawDecodeByte (uVal : UInt8) : Int :=
  let uVal := ~~~uVal
  let sign := uVal &&& 0x80
  let exponent := ((uVal >>> 4) &&& 0x07).toNat
  let mantissa := (uVal &&& 0x0F).toNat
  let magnitude := ((mantissa <<< 3) + bias) <<< exponent
  let sample : Int := magnitude - bias
  if sign ≠ 0 then -sample else sample

def alawDecodeByte (aVal : UInt8) : Int :=
  let aVal := aVal ^^^ 0x55
  let t := (aVal &&& 0x0F).toNat <<< 4
  let seg := ((aVal &&& 0x70) >>> 4).toNat
  let t :=
    if seg = 0 then t + 8
    else if seg = 1 then t + 0x108
    else (t + 0x108) <<< (seg - 1)
  if aVal &&& 0x80 ≠ 0 then t else -t

/-- `range(256)` -/
def allCodes : List UInt8 := (List.range 256).map UInt8.ofNat

/-- The sample that each code stands for. -/
structure DecodeTable where
  entries : List Int
  length_entries : entries.length = 256

/-- `decode_table[code]` -/
def DecodeTable.entry (table : DecodeTable) (code : UInt8) : Int :=
  table.entries.get ⟨code.toNat, by
    rw [table.length_entries]
    exact code.toNat_lt⟩

section Lut

variable (table : DecodeTable)

def codesByValue : List UInt8 :=
  allCodes.mergeSort fun a b => decide (table.entry a ≤ table.entry b)

def sortedValues : List Int := (codesByValue table).map table.entry

/-- Where in the sorted values the one nearest to a sample is; of two the lower. -/
def nearestIndex (sortedValues : List Int) (sample : Int) : Nat :=
  let idx := Bisect.left sortedValues sample
  if idx = 0 then 0
  else if idx = sortedValues.length then sortedValues.length - 1
  else if sample - sortedValues.getD (idx - 1) 0 ≤ sortedValues.getD idx 0 - sample then idx - 1
  else idx

def nearestCode (sample : Int) : UInt8 :=
  (codesByValue table).getD (nearestIndex (sortedValues table) sample) 0

/-- `range(-32768, 32768)` -/
def allSamples : List Int := (List.range 65536).map fun i : Nat => (i : Int) - 32768

/-- Each sample is assigned its code at the index that it is looked up with. -/
def buildEncodeLut : Bytes :=
  allSamples.foldl (fun lut sample => lut.set (sample + 32768).toNat (nearestCode table sample))
    (List.replicate 65536 0)

end Lut

/-- A value that an array of type `h` can hold. -/
def IsShort (value : Int) : Prop := -32768 ≤ value ∧ value ≤ 32767

instance (value : Int) : Decidable (IsShort value) := inferInstanceAs (Decidable (_ ∧ _))

def shortItem (value : Int) : Except CodecError Int := do
  require (IsShort value) .overflowError
  pure value

/-- `array.array("h", values)` -/
def shortArray (values : List Int) : Except CodecError (List Int) := values.mapM shortItem

/-- The bytes of a string two by two. -/
def cells : Bytes → List Bytes
  | first :: second :: rest => [first, second] :: cells rest
  | _ => []

/-- The value that an array of type `h` has in two bytes of its memory. -/
def shortOf (order : ByteOrder) (cell : Bytes) : Int :=
  if BigEndian.decode (order.arrange cell) < 32768 then BigEndian.decode (order.arrange cell)
  else BigEndian.decode (order.arrange cell) - 65536

/-- `byteswap` of an array of type `h`. -/
def byteswap (samples : List Int) : List Int :=
  samples.map fun sample => shortOf .big (signedWire .little 2 sample)

section Host

-- the value of `sys.byteorder`
variable (byteorder : ByteOrder)

def tobytes (samples : List Int) : Bytes := samples.flatMap (signedWire byteorder 2)

def frombytes (data : Bytes) : Except CodecError (List Int) := do
  require (data.length % 2 = 0) .valueError
  pure ((cells data).map (shortOf byteorder))

def decode (data : Bytes) (table : DecodeTable) : Except CodecError Bytes := do
  let samples ← shortArray (data.map table.entry)
  let samples := if byteorder = .big then byteswap samples else samples
  pure (tobytes byteorder samples)

/-- `lut[sample + 32768]` for an index that is not negative. -/
def lutEntry (lut : Bytes) (sample : Int) : Except CodecError UInt8 :=
  match lut[(sample + 32768).toNat]? with
  | some code => .ok code
  | none => .error .indexError

def encode (pcm16le lut : Bytes) : Except CodecError Bytes := do
  let samples ← frombytes byteorder pcm16le
  let samples := if byteorder = .big then byteswap samples else samples
  samples.mapM (lutEntry lut)

def ulawDecode : DecodeTable := ⟨allCodes.map ulawDecodeByte, by simp [allCodes]⟩

def alawDecode : DecodeTable := ⟨allCodes.map alawDecodeByte, by simp [allCodes]⟩

def ulawEncode : Bytes := buildEncodeLut ulawDecode

def alawEncode : Bytes := buildEncodeLut alawDecode

def decodePcmu (data : Bytes) : Except CodecError Bytes := decode byteorder data ulawDecode

def encodePcmu (pcm16le : Bytes) : Except CodecError Bytes :=
  encode byteorder pcm16le ulawEncode

def decodePcma (data : Bytes) : Except CodecError Bytes := decode byteorder data alawDecode

def encodePcma (pcm16le : Bytes) : Except CodecError Bytes :=
  encode byteorder pcm16le alawEncode

end Host

end G711

end Rtpkit

import Rtpkit.PcapReadBack
import Rtpkit.IpAddress

namespace Rtpkit

open Outcome Chunk

/-- What the fraction of a timestamp counts. -/
inductive Resolution
  | micro
  | nano
  deriving DecidableEq, Repr

def Resolution.magicNumber : Resolution → Int
  | .micro => 0xa1b2c3d4
  | .nano => 0xa1b23c4d

def Resolution.unitsPerSecond : Resolution → Nat
  | .micro => 10 ^ 6
  | .nano => 10 ^ 9

/-- A variant of the classic format: its numbers, the magic one among them, are all laid out in
one byte order. -/
structure PcapVariant where
  order : ByteOrder
  resolution : Resolution
  deriving DecidableEq, Repr

def PcapVariant.magic (v : PcapVariant) : Bytes :=
  Fmt.wireIn v.order .I v.resolution.magicNumber

/-- A record as the format can hold it. -/
structure PcapRecord where
  tsSec : UInt32
  tsFrac : UInt32
  origLen : UInt32
  data : Bytes
  data_lt : data.length < 2 ^ 32

def PcapRecord.wire (order : ByteOrder) (r : PcapRecord) : Bytes :=
  recordWireIn order r.tsSec.toNat r.tsFrac.toNat r.origLen.toNat r.data

/-- The packet that a record stands for. -/
def PcapRecord.packet (resolution : Resolution) (linkType : UInt32) (r : PcapRecord) :
    PcapPacket where
  timestamp := r.tsSec.toNat + (r.tsFrac.toNat : ℚ) / resolution.unitsPerSecond
  capturedLength := r.data.length
  originalLength := r.origLen.toNat
  linkType := linkType.toNat
  data := r.data

/-- The magic number, 16 bytes that the reader passes over, the link type, and the records. -/
def PcapVariant.image (v : PcapVariant) (middle : FixedBytes 16) (linkType : UInt32)
    (records : List PcapRecord) : Bytes :=
  v.magic ++ (middle.1 ++ Fmt.wireIn v.order .I linkType.toNat) ++
    (records.map (PcapRecord.wire v.order)).flatten

/-- The reader knows the four variants and no other. -/
theorem magicTable_eq_variants : magicTable =
    [⟨.big, .micro⟩, ⟨.big, .nano⟩, ⟨.little, .micro⟩, ⟨.little, .nano⟩].map
      fun v : PcapVariant => (v.magic, (v.order, v.resolution.unitsPerSecond)) := by
  decide

theorem lookup_magic (v : PcapVariant) :
    magicTable.lookup v.magic = some (v.order, v.resolution.unitsPerSecond) := by
  obtain ⟨order, resolution⟩ := v
  cases order with
  | big =>
    cases resolution with
    | micro => decide
    | nano => decide
  | little =>
    cases resolution with
    | micro => decide
    | nano => decide

/-- What the reader takes from the global header of a variant. -/
def PcapVariant.format (v : PcapVariant) (linkType : UInt32) : PcapFormat where
  order := v.order
  tsDivisor := v.resolution.unitsPerSecond
  linkType := linkType.toNat

theorem fits_uint32 (n : UInt32) : Fmt.Fits .I n.toNat := by
  have hlt := n.toNat_lt
  rw [Fmt.fits_I]
  omega

theorem readGlobalHeader_image (v : PcapVariant) (middle : FixedBytes 16) (linkType : UInt32)
    (records : List PcapRecord) :
    readGlobalHeader (v.image middle linkType records) = .ok (v.format linkType) := by
  have hmagic : v.magic.length = 4 := Fmt.length_wireIn _ _ _
  exact readGlobalHeader_magic middle.1 hmagic middle.2 (lookup_magic v) (fits_uint32 linkType) _

theorem drop_image (v : PcapVariant) (middle : FixedBytes 16) (linkType : UInt32)
    (records : List PcapRecord) : (v.image middle linkType records).drop globalHeaderSize =
      (records.map (PcapRecord.wire v.order)).flatten := by
  apply List.drop_left'
  simp [PcapVariant.magic, middle.2, globalHeaderSize]

theorem pcapHead_wire (v : PcapVariant) (linkType : UInt32) (r : PcapRecord) (rest : Bytes) :
    pcapHead (v.format linkType) (r.wire v.order ++ rest) =
      .unit (r.wire v.order).length () none (some (r.packet v.resolution linkType)) := by
  have hlen : Fmt.Fits .I r.data.length := by
    have hlt := r.data_lt
    rw [Fmt.fits_I]
    omega
  exact pcapHead_recordWireIn (v.format linkType) (fits_uint32 r.tsSec) (fits_uint32 r.tsFrac)
    hlen (fits_uint32 r.origLen) rest

/-- All variants are read alike: the records come back one by one, whatever is in their data. -/
theorem readPcap_image (v : PcapVariant) (middle : FixedBytes 16) (linkType : UInt32)
    (records : List PcapRecord) : readPcap (v.image middle linkType records) =
      ⟨records.map (PcapRecord.packet v.resolution linkType), none⟩ :=
  readPcap_of_records (readGlobalHeader_image v middle linkType records)
    (drop_image v middle linkType records) fun r _ => pcapHead_wire v linkType r

/-- The byte order of a file does not matter. -/
theorem readPcap_variants (linkType : UInt32) (records : List PcapRecord) :
    (∀ (v : PcapVariant) (middle : FixedBytes 16),
      readPcap (v.image middle linkType records) =
        ⟨records.map (PcapRecord.packet v.resolution linkType), none⟩) ∧
    ∀ (resolution : Resolution) (middle middle' : FixedBytes 16),
      readPcap (PcapVariant.image ⟨.big, resolution⟩ middle linkType records) =
        readPcap (PcapVariant.image ⟨.little, resolution⟩ middle' linkType records) := by
  refine ⟨fun v middle => readPcap_image v middle linkType records, ?_⟩
  intro resolution middle middle'
  rw [readPcap_image, readPcap_image]

end Rtpkit

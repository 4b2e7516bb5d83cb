import Rtpkit.G711Lut

namespace Rtpkit

open Outcome

namespace G711

section Shorts

variable {order : ByteOrder} {cell : Bytes}

theorem decode_arrange_lt (order : ByteOrder) (h : cell.length = 2) :
    BigEndian.decode (order.arrange cell) < 65536 := by
  have hlt := BigEndian.decode_lt (order.arrange cell)
  rwa [ByteOrder.length_arrange, h] at hlt

theorem isShort_shortOf (order : ByteOrder) (h : cell.length = 2) :
    IsShort (shortOf order cell) := by
  have hlt := decode_arrange_lt order h
  rw [shortOf, IsShort]
  split
  next => omega
  next => omega

/-- Two bytes are what their value is written as. -/
theorem signedWire_shortOf (order : ByteOrder) (h : cell.length = 2) :
    signedWire order 2 (shortOf order cell) = cell := by
  have hlt := decode_arrange_lt order h
  have hvalue : (shortOf order cell % 256 ^ 2).toNat = BigEndian.decode (order.arrange cell) := by
    rw [shortOf]
    split
    next => omega
    next => omega
  have hlen : 2 = (order.arrange cell).length := by rw [ByteOrder.length_arrange, h]
  rw [signedWire, hvalue, hlen, BigEndian.encode_decode, ByteOrder.arrange_arrange]

theorem shortOf_signedWire {sample : Int} (order : ByteOrder) (h : IsShort sample) :
    shortOf order (signedWire order 2 sample) = sample := by
  obtain ⟨hlow, hhigh⟩ := h
  have hlt : (sample % 256 ^ 2).toNat < 256 ^ 2 := by omega
  rw [shortOf, signedWire, ByteOrder.arrange_arrange, BigEndian.decode_encode hlt]
  split
  next => omega
  next => omega

/-- On a big-endian host the swap makes up for the order that the array was filled in. -/
theorem byteswap_shortOf (h : cell.length = 2) :
    shortOf .big (signedWire .little 2 (shortOf .big cell)) = shortOf .little cell := by
  have hreverse : signedWire .little 2 (shortOf .big cell) =
      (signedWire .big 2 (shortOf .big cell)).reverse := rfl
  rw [hreverse, signedWire_shortOf .big h]
  rfl

theorem signedWire_byteswap (sample : Int) :
    signedWire .big 2 (shortOf .big (signedWire .little 2 sample)) = signedWire .little 2 sample :=
  signedWire_shortOf .big (length_signedWire _ _ _)

end Shorts

section Cells

theorem length_of_mem_cells {data cell : Bytes} (h : cell ∈ cells data) : cell.length = 2 := by
  induction data using cells.induct with
  | case1 first second rest ih =>
    rcases List.mem_cons.mp h with rfl | hrest
    · rfl
    · exact ih hrest
  | case2 data hshort =>
    rw [cells] at h
    · cases h
    · exact hshort

theorem length_cells (data : Bytes) : (cells data).length = data.length / 2 := by
  induction data using cells.induct with
  | case1 first second rest ih =>
    rw [cells, List.length_cons, ih, List.length_cons, List.length_cons]
    omega
  | case2 data hshort =>
    rcases data with _ | ⟨first, _ | ⟨second, rest⟩⟩
    · rfl
    · simp [cells]
    · exact absurd rfl (hshort first second rest)

theorem cells_append {cell : Bytes} (h : cell.length = 2) (rest : Bytes) :
    cells (cell ++ rest) = cell :: cells rest := by
  obtain ⟨first, second, rfl⟩ := List.length_eq_two.mp h
  rfl

theorem cells_flatMap {α : Type} {wire : α → Bytes} (h : ∀ x, (wire x).length = 2) (xs : List α) :
    cells (xs.flatMap wire) = xs.map wire := by
  induction xs with
  | nil => rfl
  | cons x xs ih => rw [List.flatMap_cons, cells_append (h x), ih, List.map_cons]

end Cells

/-- The samples of little-endian PCM. -/
def samplesOf (pcm16le : Bytes) : List Int := (cells pcm16le).map (shortOf .little)

/-- Little-endian PCM. -/
def pcmOf (samples : List Int) : Bytes := samples.flatMap (signedWire .little 2)

@[simp] theorem length_pcmOf (samples : List Int) : (pcmOf samples).length = samples.length * 2 := by
  induction samples with
  | nil => rfl
  | cons sample samples ih =>
    rw [pcmOf, List.flatMap_cons, List.length_append, ← pcmOf, ih, length_signedWire,
      List.length_cons]
    omega

theorem isShort_of_mem_samplesOf {pcm16le : Bytes} {sample : Int} (h : sample ∈ samplesOf pcm16le) :
    IsShort sample := by
  obtain ⟨cell, hcell, rfl⟩ := List.mem_map.mp h
  exact isShort_shortOf .little (length_of_mem_cells hcell)

theorem length_samplesOf (pcm16le : Bytes) : (samplesOf pcm16le).length = pcm16le.length / 2 := by
  rw [samplesOf, List.length_map, length_cells]

theorem samplesOf_pcmOf {samples : List Int} (h : ∀ sample ∈ samples, IsShort sample) :
    samplesOf (pcmOf samples) = samples := by
  rw [samplesOf, pcmOf, cells_flatMap fun sample => length_signedWire _ _ _, List.map_map]
  exact (List.map_congr_left fun sample hsample =>
    shortOf_signedWire .little (h sample hsample)).trans (List.map_id samples)

theorem shortItem_eq_ok {value result : Int} :
    shortItem value = .ok result ↔ IsShort value ∧ result = value :=
  require_pure_eq_ok

theorem shortArray_eq_ok {values result : List Int} :
    shortArray values = .ok result ↔ (∀ value ∈ values, IsShort value) ∧ result = values := by
  rw [shortArray, mapM_eq_ok_of_spec fun _ _ => shortItem_eq_ok, List.map_id']

theorem tobytes_eq (byteorder : ByteOrder) (samples : List Int) :
    tobytes byteorder (if byteorder = .big then byteswap samples else samples) = pcmOf samples := by
  cases byteorder with
  | little => rfl
  | big =>
    rw [if_pos rfl, tobytes, byteswap, List.flatMap_map, pcmOf]
    exact List.flatMap_congr fun sample _ => signedWire_byteswap sample

theorem frombytes_eq (byteorder : ByteOrder) (data : Bytes) :
    (if byteorder = .big then byteswap ((cells data).map (shortOf byteorder))
      else (cells data).map (shortOf byteorder)) = samplesOf data := by
  cases byteorder with
  | little => rfl
  | big =>
    rw [if_pos rfl, byteswap, List.map_map, samplesOf]
    exact List.map_congr_left fun cell hcell => byteswap_shortOf (length_of_mem_cells hcell)

/-- Whatever the host, the bytes are taken as little-endian samples. -/
theorem encode_eq (byteorder : ByteOrder) {pcm16le : Bytes} (h : pcm16le.length % 2 = 0)
    (lut : Bytes) : encode byteorder pcm16le lut = (samplesOf pcm16le).mapM (lutEntry lut) := by
  rw [encode, frombytes, require_pos h, bind_ok, pure_bind]
  dsimp only
  rw [frombytes_eq]

/-- Every entry of the table is a 16-bit sample. -/
def DecodeTable.Is16Bit (table : DecodeTable) : Prop := ∀ value ∈ table.entries, IsShort value

instance (table : DecodeTable) : Decidable table.Is16Bit :=
  inferInstanceAs (Decidable (∀ value ∈ table.entries, IsShort value))

section Codec

variable {table : DecodeTable}

theorem DecodeTable.Is16Bit.entry (h : table.Is16Bit) (code : UInt8) : IsShort (table.entry code) :=
  h _ (List.get_mem _ _)

theorem decode_eq (h : table.Is16Bit) (byteorder : ByteOrder) (data : Bytes) :
    decode byteorder data table = .ok (pcmOf (data.map table.entry)) := by
  have hshorts : shortArray (data.map table.entry) = .ok (data.map table.entry) := by
    refine shortArray_eq_ok.mpr ⟨fun value hvalue => ?_, rfl⟩
    obtain ⟨code, -, rfl⟩ := List.mem_map.mp hvalue
    exact h.entry code
  rw [decode, hshorts, bind_ok]
  exact congrArg Except.ok (tobytes_eq byteorder _)

theorem encode_buildEncodeLut (table : DecodeTable) (byteorder : ByteOrder) {pcm16le : Bytes}
    (h : pcm16le.length % 2 = 0) : encode byteorder pcm16le (buildEncodeLut table) =
      .ok ((samplesOf pcm16le).map (nearestCode table)) := by
  rw [encode_eq byteorder h, mapM_eq_ok, List.forall₂_map_right_iff, List.forall₂_same]
  exact fun sample hsample => lutEntry_buildEncodeLut table (isShort_of_mem_samplesOf hsample)

theorem encode_pcmOf (byteorder : ByteOrder) {samples : List Int}
    (h : ∀ sample ∈ samples, IsShort sample) :
    encode byteorder (pcmOf samples) (buildEncodeLut table) =
      .ok (samples.map (nearestCode table)) := by
  have heven : (pcmOf samples).length % 2 = 0 := by
    rw [length_pcmOf]
    omega
  rw [encode_buildEncodeLut table byteorder heven, samplesOf_pcmOf h]

/-- A sample that some code stands for is encoded without loss. -/
theorem entry_nearestCode_entry (table : DecodeTable) (code : UInt8) :
    table.entry (nearestCode table (table.entry code)) = table.entry code := by
  have hle := nearestCode_le table (table.entry code) code
  rw [sub_self, abs_zero, abs_nonpos_iff, sub_eq_zero] at hle
  exact hle.symm

/-- What was decoded is encoded, and decoded to the same again. -/
theorem decode_encode_decode (h : table.Is16Bit) (byteorder : ByteOrder) (data : Bytes) :
    ∃ pcm codes, decode byteorder data table = .ok pcm ∧
      encode byteorder pcm (buildEncodeLut table) = .ok codes ∧
      decode byteorder codes table = .ok pcm := by
  have hshorts : ∀ sample ∈ data.map table.entry, IsShort sample := by
    intro sample hsample
    obtain ⟨code, -, rfl⟩ := List.mem_map.mp hsample
    exact h.entry code
  refine ⟨_, _, decode_eq h byteorder data, encode_pcmOf byteorder hshorts, ?_⟩
  rw [decode_eq h, List.map_map, List.map_map]
  refine congrArg (fun samples => Except.ok (pcmOf samples)) (List.map_congr_left fun code _ => ?_)
  exact entry_nearestCode_entry table code

/-- Decoding after encoding keeps the number of samples. -/
theorem decode_encode (h : table.Is16Bit) (byteorder : ByteOrder) {pcm16le : Bytes}
    (heven : pcm16le.length % 2 = 0) :
    ∃ codes pcm, encode byteorder pcm16le (buildEncodeLut table) = .ok codes ∧
      decode byteorder codes table = .ok pcm ∧ pcm.length = pcm16le.length := by
  refine ⟨_, _, encode_buildEncodeLut table byteorder heven, decode_eq h byteorder _, ?_⟩
  rw [length_pcmOf, List.length_map, List.length_map, length_samplesOf]
  omega

theorem ulawDecode_is16Bit : ulawDecode.Is16Bit := by decide +kernel

theorem alawDecode_is16Bit : alawDecode.Is16Bit := by decide +kernel

theorem pcmu_stable (byteorder : ByteOrder) (data : Bytes) : ∃ pcm codes,
    decodePcmu byteorder data = .ok pcm ∧ encodePcmu byteorder pcm = .ok codes ∧
      decodePcmu byteorder codes = .ok pcm :=
  decode_encode_decode ulawDecode_is16Bit byteorder data

theorem pcma_stable (byteorder : ByteOrder) (data : Bytes) : ∃ pcm codes,
    decodePcma byteorder data = .ok pcm ∧ encodePcma byteorder pcm = .ok codes ∧
      decodePcma byteorder codes = .ok pcm :=
  decode_encode_decode alawDecode_is16Bit byteorder data

/-- Encoding takes a nearest code for each sample; what is decoded keeps its value from then
on. -/
theorem encode_optimal_stable (table : DecodeTable) :
    (∀ sample, IsShort sample →
      ∃ code, lutEntry (buildEncodeLut table) sample = .ok code ∧
        ∀ other, |sample - table.entry code| ≤ |sample - table.entry other|) ∧
    (table.Is16Bit → ∀ byteorder data, ∃ pcm codes,
      decode byteorder data table = .ok pcm ∧
      encode byteorder pcm (buildEncodeLut table) = .ok codes ∧
      decode byteorder codes table = .ok pcm) ∧
    (table.Is16Bit → ∀ byteorder pcm, pcm.length % 2 = 0 → ∃ codes once again,
      encode byteorder pcm (buildEncodeLut table) = .ok codes ∧
      decode byteorder codes table = .ok once ∧ once.length = pcm.length ∧
      encode byteorder once (buildEncodeLut table) = .ok again ∧
      decode byteorder again table = .ok once) := by
  refine ⟨fun sample hsample => ?_, decode_encode_decode, fun h byteorder pcm heven => ?_⟩
  · exact ⟨_, lutEntry_buildEncodeLut table hsample, nearestCode_le table sample⟩
  · obtain ⟨codes, once, hencode, hdecode, hlen⟩ := decode_encode h byteorder heven
    obtain ⟨once', again, hdecode', hencode', hagain⟩ := decode_encode_decode h byteorder codes
    cases hdecode.symm.trans hdecode'
    exact ⟨codes, once, again, hencode, hdecode, hlen, hencode', hagain⟩

end Codec

end G711

end Rtpkit

import Rtpkit.PcapngReader

namespace Rtpkit

open Outcome Chunk

def IsPcapngMalformed (e : Error) : Prop := ∃ detail, e = .pcapngMalformedBlock detail

theorem unpackIn_failsOnly {allowed : Error → Prop} (order : ByteOrder) {f : Fmt} {data : Bytes}
    {off : Nat} (h : off + f.size ≤ data.length) : FailsOnly allowed (unpackIn order f data off) := by
  rw [unpackIn_eq_ok.mpr ⟨h, rfl⟩]
  exact failsOnly_ok _

theorem iterOptions_failsOnly {allowed : Error → Prop} (order : ByteOrder) (data : Bytes)
    (pos : Nat) : FailsOnly allowed (iterOptions order data pos) := by
  induction hn : data.length - pos using Nat.strongRecOn generalizing pos with
  | _ n ih =>
    rw [iterOptions]
    split
    next hroom =>
      refine failsOnly_bind (unpackIn_failsOnly order ?_) fun _ _ => ?_
      · simp only [Fmt.size_H]
        omega
      refine failsOnly_bind (unpackIn_failsOnly order ?_) fun _ _ => ?_
      · simp only [Fmt.size_H]
        omega
      split
      next => exact failsOnly_ok _
      split
      next => exact failsOnly_ok _
      next => exact failsOnly_bind (ih _ (by omega) _ rfl) fun _ _ => failsOnly_ok _
    next => exact failsOnly_ok _

theorem parseIfTsresol_failsOnly {allowed : Error → Prop} (order : ByteOrder) (options : Bytes) :
    FailsOnly allowed (parseIfTsresol order options) := by
  refine failsOnly_bind (iterOptions_failsOnly order options 0) fun found _ => ?_
  split
  next => exact failsOnly_ok _
  next option hoption =>
    have hcode := List.find?_some hoption
    simp only [decide_eq_true_eq] at hcode
    exact failsOnly_bind (getByte_failsOnly hcode.2) fun _ _ => failsOnly_ok _

theorem parseIdb_failsOnly (body : Bytes) (order : ByteOrder) :
    FailsOnly IsPcapngMalformed (parseIdb body order) := by
  refine failsOnly_bind (failsOnly_require ⟨_, rfl⟩) fun _ hroom => ?_
  have hroom := require_eq_ok.mp hroom
  refine failsOnly_bind (unpackIn_failsOnly order ?_) fun _ _ => ?_
  · simp only [Fmt.size_H]
    omega
  exact failsOnly_bind (parseIfTsresol_failsOnly order _) fun _ _ => failsOnly_ok _

theorem parseEpb_failsOnly (body : Bytes) (order : ByteOrder) (interfaces : List Interface) :
    FailsOnly IsPcapngMalformed (parseEpb body order interfaces) := by
  refine failsOnly_bind (failsOnly_require ⟨_, rfl⟩) fun _ hroom => ?_
  have hroom := require_eq_ok.mp hroom
  have hword : ∀ i, i + 4 ≤ 20 → FailsOnly IsPcapngMalformed (unpackIn order .I body i) :=
    fun i hi => unpackIn_failsOnly order (by simp only [Fmt.size_I]; omega)
  refine failsOnly_bind (hword 0 (by decide)) fun _ _ => ?_
  refine failsOnly_bind (hword 4 (by decide)) fun _ _ => ?_
  refine failsOnly_bind (hword 8 (by decide)) fun _ _ => ?_
  refine failsOnly_bind (hword 12 (by decide)) fun _ _ => ?_
  refine failsOnly_bind (hword 16 (by decide)) fun _ _ => ?_
  refine failsOnly_bind (failsOnly_require ⟨_, rfl⟩) fun _ _ => ?_
  split
  next => exact failsOnly_error ⟨_, rfl⟩
  next => exact failsOnly_ok _

theorem parseSpb_failsOnly (body : Bytes) (order : ByteOrder) (interfaces : List Interface) :
    FailsOnly IsPcapngMalformed (parseSpb body order interfaces) := by
  refine failsOnly_bind (failsOnly_require ⟨_, rfl⟩) fun _ hroom => ?_
  exact failsOnly_bind (unpackIn_failsOnly order (require_eq_ok.mp hroom)) fun _ _ => failsOnly_ok _

/-- Whatever the body, a block is read within it or called malformed. -/
theorem parseBlock_failsOnly (hdr : BlockHeader) (body : Bytes) :
    FailsOnly IsPcapngMalformed (parseBlock hdr body) := by
  unfold parseBlock
  split
  next => exact failsOnly_bind (parseIdb_failsOnly _ _) fun _ _ => failsOnly_ok _
  split
  next => exact failsOnly_bind (parseEpb_failsOnly _ _ _) fun _ _ => failsOnly_ok _
  split
  next => exact failsOnly_bind (parseSpb_failsOnly _ _ _) fun _ _ => failsOnly_ok _
  next => exact failsOnly_ok _

theorem startSection_append_left {state : PcapngState} {x : Bytes}
    (h : minBlockSize ≤ x.length) (y : Bytes) :
    startSection state (x ++ y) 0 = startSection state x 0 := by
  simp only [minBlockSize, blockHeaderSize, blockTrailerSize] at h
  unfold startSection
  rw [slice_append_left (by omega), slice_append_left (by omega)]

theorem startSection_drop (state : PcapngState) (data : Bytes) (off : Nat) :
    startSection state (data.drop off) 0 = startSection state data off := by
  unfold startSection
  rw [slice_drop, slice_drop]
  rfl

theorem readBlockHeader_append_left {state : PcapngState} {x : Bytes}
    (h : minBlockSize ≤ x.length) (y : Bytes) :
    readBlockHeader state (x ++ y) 0 = readBlockHeader state x 0 := by
  have hstart : startSection state (x ++ y) 0 = startSection state x 0 :=
    startSection_append_left h y
  simp only [minBlockSize, blockHeaderSize, blockTrailerSize] at h
  have hword : ∀ order i, i + 4 ≤ 12 → unpackIn order .I (x ++ y) i = unpackIn order .I x i := by
    intro order i hi
    exact unpackIn_append_left (by simp only [Fmt.size_I]; omega) y
  simp only [readBlockHeader, hstart, hword _ 0 (by decide), hword _ (0 + 4) (by decide)]

theorem readBlockHeader_drop {state : PcapngState} {data : Bytes} {off : Nat}
    (h : off + minBlockSize ≤ data.length) :
    readBlockHeader state (data.drop off) 0 = readBlockHeader state data off := by
  simp only [minBlockSize, blockHeaderSize, blockTrailerSize] at h
  have hword : ∀ order i, i + 4 ≤ 12 →
      unpackIn order .I (data.drop off) i = unpackIn order .I data (off + i) := by
    intro order i hi
    exact unpackIn_drop (by simp only [Fmt.size_I]; omega)
  simp only [readBlockHeader, startSection_drop, hword _ 0 (by decide),
    hword _ (0 + 4) (by decide)]
  rfl

/-- The state after a block, the objection of strict mode, and the packet. -/
def blockResult (hdr : BlockHeader) (body : Bytes) :
    PcapngState × Option Error × Option PcapPacket :=
  match parseBlock hdr body with
  | .ok (interfaces, packet) => ({ order := some hdr.order, interfaces := interfaces }, none, packet)
  | .error e => ({ order := some hdr.order, interfaces := hdr.interfaces }, some e, none)

/-- What one turn of the loop of `_read_pcapng` finds in the bytes from its offset on. -/
def pcapngHead (state : PcapngState) (rest : Bytes) : Head PcapngState PcapPacket Error :=
  if rest.length < minBlockSize then .cut (.pcapngBufferTooShort minBlockSize rest.length)
  else
    match readBlockHeader state rest 0 with
    | .error e => .fatal e
    | .ok hdr =>
      if hdr.blockTotalLength < minBlockSize ∨ rest.length < hdr.blockTotalLength then
        .cut (.pcapngMalformedBlock s!"block declares {hdr.blockTotalLength} bytes, unavailable")
      else
        let result := blockResult hdr
          (slice rest blockHeaderSize (hdr.blockTotalLength - blockTrailerSize))
        .unit hdr.blockTotalLength result.1 result.2.1 result.2.2

theorem pcapngHead_eq_unit {state after : PcapngState} {rest : Bytes} {size : Nat}
    {objection : Option Error} {item : Option PcapPacket} :
    pcapngHead state rest = .unit size after objection item ↔
      ∃ hdr, minBlockSize ≤ rest.length ∧ readBlockHeader state rest 0 = .ok hdr ∧
        hdr.blockTotalLength = size ∧ minBlockSize ≤ size ∧ size ≤ rest.length ∧
        blockResult hdr (slice rest blockHeaderSize (size - blockTrailerSize)) =
          (after, objection, item) := by
  unfold pcapngHead
  by_cases hroom : rest.length < minBlockSize
  · rw [if_pos hroom]
    constructor
    · intro h
      cases h
    · rintro ⟨_, hle, _⟩
      omega
  · rw [if_neg hroom]
    cases hhdr : readBlockHeader state rest 0 with
    | error e =>
      dsimp only
      constructor
      · intro h
        cases h
      · rintro ⟨_, _, h, _⟩
        cases h
    | ok hdr =>
      dsimp only
      by_cases hlen : hdr.blockTotalLength < minBlockSize ∨ rest.length < hdr.blockTotalLength
      · rw [if_pos hlen]
        constructor
        · intro h
          cases h
        · rintro ⟨_, _, h, rfl, hmin, hle, _⟩
          cases h
          omega
      · rw [if_neg hlen]
        constructor
        · intro h
          cases h
          exact ⟨hdr, by omega, rfl, rfl, by omega, by omega, rfl⟩
        · rintro ⟨_, _, h, rfl, hmin, hle, hresult⟩
          cases h
          rw [hresult]

theorem pcapngHeaderSpec :
    HeaderSpec pcapngHead minBlockSize (fun state rest => readBlockHeader state rest 0)
      BlockHeader.blockTotalLength (fun hdr block after objection item =>
        blockResult hdr (slice block blockHeaderSize (block.length - blockTrailerSize)) =
          (after, objection, item)) where
  pos := by decide
  fromFront h y := readBlockHeader_append_left h y
  unit := by
    intro s rest n after objection item
    rw [pcapngHead_eq_unit]
    refine exists_congr fun hdr => ?_
    constructor
    · rintro ⟨hroom, hhdr, hsize, hmin, hle, hresult⟩
      refine ⟨hroom, hhdr, hsize, hmin, hle, ?_⟩
      rwa [List.length_take, Nat.min_eq_left hle, slice_take _ _ (Nat.sub_le _ _)]
    · rintro ⟨hroom, hhdr, hsize, hmin, hle, hresult⟩
      refine ⟨hroom, hhdr, hsize, hmin, hle, ?_⟩
      rwa [List.length_take, Nat.min_eq_left hle, slice_take _ _ (Nat.sub_le _ _)] at hresult
  tooShort h := ⟨_, if_pos h⟩
  overrun := by
    intro state rest hdr hroom hhdr hover
    unfold pcapngHead
    rw [if_neg (by omega), hhdr]
    exact ⟨_, if_pos (.inr hover)⟩

/-- Blocks as units: the bytes of a block and the state before it decide how it is read. -/
def pcapngFraming : Framing PcapngState UInt8 PcapPacket Error where
  head := pcapngHead
  progress h := pcapngHeaderSpec.progress h
  stable h tail := pcapngHeaderSpec.stable h tail
  short h k _ hk := pcapngHeaderSpec.short h k hk

theorem pcapngFraming_head (state : PcapngState) (rest : Bytes) :
    pcapngFraming.head state rest = pcapngHead state rest := rfl

/-- The loop at an offset reads the blocks of the bytes from there on. -/
theorem readPcapngLoop_eq_run (strict : Bool) (data : Bytes) (state : PcapngState) (off : Nat) :
    readPcapngLoop strict data state off = pcapngFraming.run strict state (data.drop off) := by
  refine Framing.run_drop_eq (f := readPcapngLoop strict data) id
    (fun items y => y.prepend items) (fun _ _ => rfl) ?_ ?_ state off
  · intro state off hpast
    rw [readPcapngLoop, dif_neg (by omega)]
    rfl
  · intro state off hlt
    have hlen : (data.drop off).length = data.length - off := List.length_drop
    rw [readPcapngLoop, dif_pos hlt, pcapngFraming_head, pcapngHead, hlen]
    dsimp only
    by_cases hshort : data.length - off < minBlockSize
    · rw [if_pos hshort, if_pos hshort]
      cases strict with
      | true => rfl
      | false => rfl
    have hroom : off + minBlockSize ≤ data.length := by
      simp only [minBlockSize, blockHeaderSize, blockTrailerSize] at hshort ⊢
      omega
    rw [if_neg hshort, if_neg hshort, readBlockHeader_drop hroom]
    cases hhdr : readBlockHeader state data off with
    | error e => rfl
    | ok hdr =>
      dsimp only
      by_cases hover : hdr.blockTotalLength < minBlockSize ∨
          data.length < off + hdr.blockTotalLength
      · have hover' : hdr.blockTotalLength < minBlockSize ∨
            data.length - off < hdr.blockTotalLength := by omega
        rw [dif_pos hover, if_pos hover']
        cases strict with
        | true => rfl
        | false => rfl
      · have hfits : ¬(hdr.blockTotalLength < minBlockSize ∨
            data.length - off < hdr.blockTotalLength) := by omega
        have hbody : slice (data.drop off) blockHeaderSize
              (hdr.blockTotalLength - blockTrailerSize) =
            slice data (off + blockHeaderSize) (off + hdr.blockTotalLength - blockTrailerSize) := by
          rw [slice_drop]
          congr 1
          simp only [minBlockSize, blockHeaderSize, blockTrailerSize] at hfits ⊢
          omega
        have hmalformed := parseBlock_failsOnly hdr
          (slice data (off + blockHeaderSize) (off + hdr.blockTotalLength - blockTrailerSize))
        rw [dif_neg hover, if_neg hfits, hbody, blockResult]
        cases hblock : parseBlock hdr
            (slice data (off + blockHeaderSize) (off + hdr.blockTotalLength - blockTrailerSize)) with
        | ok result =>
          cases strict with
          | true => rfl
          | false => rfl
        | error e =>
          obtain ⟨detail, rfl⟩ := hmalformed e hblock
          cases strict with
          | true => rfl
          | false => rfl

theorem readPcapngMode_eq_run (strict : Bool) {data : Bytes} (h : minBlockSize ≤ data.length) :
    readPcapngMode strict data =
      pcapngFraming.run strict { order := none, interfaces := [] } data := by
  rw [readPcapngMode, if_neg (by omega), readPcapngLoop_eq_run, List.drop_zero]

end Rtpkit

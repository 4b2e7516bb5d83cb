import Rtpkit.PcapReader

namespace Rtpkit

open Outcome Chunk

section RecordHeader

variable {order : ByteOrder}

theorem exists_readRecordHeader (order : ByteOrder) {data : Bytes} {off : Nat}
    (h : off + recordHeaderSize ≤ data.length) : ∃ hdr, readRecordHeader order data off = .ok hdr := by
  simp only [recordHeaderSize] at h
  have hword : ∀ i, i + 4 ≤ 16 → ∃ n, unpackIn order .I data (off + i) = .ok n := by
    intro i hi
    exact exists_unpackIn order (by simp only [Fmt.size_I]; omega)
  obtain ⟨tsSec, h0⟩ := hword 0 (by decide)
  obtain ⟨tsFrac, h4⟩ := hword 4 (by decide)
  obtain ⟨inclLen, h8⟩ := hword 8 (by decide)
  obtain ⟨origLen, h12⟩ := hword 12 (by decide)
  rw [Nat.add_zero] at h0
  refine ⟨⟨tsSec, tsFrac, inclLen, origLen⟩, ?_⟩
  simp only [readRecordHeader, h0, h4, h8, h12, bind_ok]
  rfl

theorem readRecordHeader_append_left {x : Bytes} (h : recordHeaderSize ≤ x.length) (y : Bytes) :
    readRecordHeader order (x ++ y) 0 = readRecordHeader order x 0 := by
  simp only [recordHeaderSize] at h
  have hword : ∀ i, i + 4 ≤ 16 → unpackIn order .I (x ++ y) i = unpackIn order .I x i := by
    intro i hi
    exact unpackIn_append_left (by simp only [Fmt.size_I]; omega) y
  simp only [readRecordHeader, hword 0 (by decide), hword (0 + 4) (by decide),
    hword (0 + 8) (by decide), hword (0 + 12) (by decide)]

theorem readRecordHeader_drop {data : Bytes} {off : Nat}
    (h : off + recordHeaderSize ≤ data.length) :
    readRecordHeader order (data.drop off) 0 = readRecordHeader order data off := by
  simp only [recordHeaderSize] at h
  have hword : ∀ i, i + 4 ≤ 16 →
      unpackIn order .I (data.drop off) i = unpackIn order .I data (off + i) := by
    intro i hi
    exact unpackIn_drop (by simp only [Fmt.size_I]; omega)
  simp only [readRecordHeader, hword 0 (by decide), hword (0 + 4) (by decide),
    hword (0 + 8) (by decide), hword (0 + 12) (by decide)]
  rfl

end RecordHeader

/-- The global header is read from its own bytes. -/
theorem readGlobalHeader_append_left {x : Bytes} (h : globalHeaderSize ≤ x.length) (y : Bytes) :
    readGlobalHeader (x ++ y) = readGlobalHeader x := by
  have happ : globalHeaderSize ≤ (x ++ y).length := by
    rw [List.length_append]
    omega
  have hlink : ∀ order, unpackIn order .I (x ++ y) 20 = unpackIn order .I x 20 := fun order =>
    unpackIn_append_left (by simp only [globalHeaderSize] at h; simp only [Fmt.size_I]; omega) y
  have hmagic : slice (x ++ y) 0 4 = slice x 0 4 :=
    slice_append_left (by simp only [globalHeaderSize] at h; omega) y 0
  simp only [readGlobalHeader, require_pos h, require_pos happ, hmagic, hlink]

/-- What one turn of the loop of `_read_pcap` finds in the bytes from its offset on. -/
def pcapHead (format : PcapFormat) (rest : Bytes) : Head Unit PcapPacket Error :=
  if rest.length < recordHeaderSize then .cut (.pcapBufferTooShort recordHeaderSize rest.length)
  else
    match readRecordHeader format.order rest 0 with
    | .error e => .fatal e
    | .ok hdr =>
      let recordEnd := recordHeaderSize + hdr.inclLen
      if rest.length < recordEnd then
        .cut (.pcapTruncatedRecord hdr.inclLen (rest.length - recordHeaderSize))
      else .unit recordEnd () none (some (format.packet hdr (slice rest recordHeaderSize recordEnd)))

theorem pcapHead_eq_unit {format : PcapFormat} {rest : Bytes} {size : Nat}
    {objection : Option Error} {item : Option PcapPacket} :
    pcapHead format rest = .unit size () objection item ↔
      ∃ hdr, recordHeaderSize ≤ rest.length ∧ readRecordHeader format.order rest 0 = .ok hdr ∧
        recordHeaderSize + hdr.inclLen = size ∧ size ≤ rest.length ∧ objection = none ∧
        item = some (format.packet hdr (slice rest recordHeaderSize size)) := by
  unfold pcapHead
  by_cases hroom : rest.length < recordHeaderSize
  · rw [if_pos hroom]
    constructor
    · intro h
      cases h
    · rintro ⟨_, hle, _⟩
      omega
  · rw [if_neg hroom]
    have hread : ∃ hdr, readRecordHeader format.order rest 0 = .ok hdr :=
      exists_readRecordHeader _ (by omega)
    obtain ⟨hdr, hhdr⟩ := hread
    rw [hhdr]
    dsimp only
    by_cases hlen : rest.length < recordHeaderSize + hdr.inclLen
    · rw [if_pos hlen]
      constructor
      · intro h
        cases h
      · rintro ⟨_, _, hhdr', rfl, hle, _⟩
        cases hhdr'
        omega
    · rw [if_neg hlen]
      constructor
      · intro h
        cases h
        exact ⟨hdr, by omega, rfl, rfl, by omega, rfl, rfl⟩
      · rintro ⟨_, _, hhdr', rfl, _, rfl, rfl⟩
        cases hhdr'
        rfl

theorem pcapHeaderSpec (format : PcapFormat) :
    HeaderSpec (fun _ : Unit => pcapHead format) recordHeaderSize
      (fun _ rest => readRecordHeader format.order rest 0)
      (fun hdr => recordHeaderSize + hdr.inclLen)
      (fun hdr record _ objection item => objection = none ∧
        item = some (format.packet hdr (slice record recordHeaderSize record.length))) where
  pos := by decide
  fromFront h y := readRecordHeader_append_left h y
  unit := by
    intro s rest n after objection item
    rw [pcapHead_eq_unit]
    constructor
    · rintro ⟨hdr, hroom, hhdr, rfl, hle, rfl, rfl⟩
      refine ⟨hdr, hroom, hhdr, rfl, Nat.le_add_right _ _, hle, rfl, ?_⟩
      rw [List.length_take, Nat.min_eq_left hle, slice_take _ _ (Nat.le_refl _)]
    · rintro ⟨hdr, hroom, hhdr, rfl, -, hle, rfl, rfl⟩
      refine ⟨hdr, hroom, hhdr, rfl, hle, rfl, ?_⟩
      rw [List.length_take, Nat.min_eq_left hle, slice_take _ _ (Nat.le_refl _)]
  tooShort h := ⟨_, if_pos h⟩
  overrun := by
    intro _ rest hdr hroom hhdr hover
    unfold pcapHead
    rw [if_neg (by omega), hhdr]
    exact ⟨_, if_pos hover⟩

/-- Records as units: the bytes of a record alone decide how it is read. -/
def pcapFraming (format : PcapFormat) : Framing Unit UInt8 PcapPacket Error where
  head _ rest := pcapHead format rest
  progress h := (pcapHeaderSpec format).progress (s := ()) h
  stable h tail := (pcapHeaderSpec format).stable (s := ()) h tail
  short h k _ hk := (pcapHeaderSpec format).short (s := ()) h k hk

theorem pcapFraming_head (format : PcapFormat) (rest : Bytes) :
    (pcapFraming format).head () rest = pcapHead format rest := rfl

/-- The loop at an offset reads the records of the bytes from there on. -/
theorem readPcapLoop_eq_run (strict : Bool) (format : PcapFormat) (data : Bytes) (off : Nat) :
    readPcapLoop strict format data off = (pcapFraming format).run strict () (data.drop off) := by
  refine Framing.run_drop_eq (f := fun _ off => readPcapLoop strict format data off) id
    (fun items y => y.prepend items) (fun _ _ => rfl) ?_ ?_ () off
  · intro _ off hpast
    rw [readPcapLoop, dif_neg (by omega)]
    rfl
  · intro _ off hlt
    have hlen : (data.drop off).length = data.length - off := List.length_drop
    rw [readPcapLoop, dif_pos hlt, pcapFraming_head, pcapHead, hlen]
    dsimp only
    by_cases hshort : data.length - off < recordHeaderSize
    · rw [if_pos hshort, if_pos hshort]
      cases strict with
      | true => rfl
      | false => rfl
    · have hroom : off + recordHeaderSize ≤ data.length := by
        simp only [recordHeaderSize] at hshort ⊢
        omega
      obtain ⟨hdr, hhdr⟩ := exists_readRecordHeader format.order hroom
      rw [if_neg hshort, if_neg hshort, readRecordHeader_drop hroom, hhdr]
      dsimp only
      by_cases hover : data.length < off + recordHeaderSize + hdr.inclLen
      · have hrest : data.length - off - recordHeaderSize =
            data.length - (off + recordHeaderSize) := by omega
        have hover' : data.length - off < recordHeaderSize + hdr.inclLen := by omega
        rw [if_pos hover, if_pos hover', hrest]
        cases strict with
        | true => rfl
        | false => rfl
      · have hfits : ¬data.length - off < recordHeaderSize + hdr.inclLen := by omega
        rw [if_neg hover, if_neg hfits, slice_drop, Nat.add_assoc]
        cases strict with
        | true => rfl
        | false => rfl

theorem readPcapMode_eq_run (strict : Bool) {data : Bytes} {format : PcapFormat}
    (h : readGlobalHeader data = .ok format) :
    readPcapMode strict data =
      (pcapFraming format).run strict () (data.drop globalHeaderSize) := by
  rw [readPcapMode, h]
  exact readPcapLoop_eq_run strict format data globalHeaderSize

theorem readPcapMode_error (strict : Bool) {data : Bytes} {e : Error} (h : readGlobalHeader data = .error e) :
    readPcapMode strict data = .raised e := by
  rw [readPcapMode, h]

end Rtpkit

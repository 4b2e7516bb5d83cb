import Rtpkit.Framing
import Rtpkit.RtcpTotal

namespace Rtpkit

open Outcome Chunk

/-- Why strict mode refuses a packet that is all there. -/
def rtcpObjection (hdr : RtcpHeader) (body : Bytes) : Option Error :=
  if hdr.version ≠ 2 then some (.rtcpInvalidVersion hdr.version)
  else
    match parseBody true hdr body with
    | .ok _ => none
    | .error e => some e

/-- What one turn of the loop of `_parse_compound` finds in the bytes from its offset on. -/
def rtcpHead (rest : Bytes) : Head Unit RtcpPacket Error :=
  if rest.length < headerSize then .cut (.rtcpBufferTooShort headerSize rest.length)
  else
    match readHeader rest 0 with
    | .error e => .fatal e
    | .ok hdr =>
      if rest.length < hdr.packetLen then
        .cut (if hdr.version ≠ 2 then .rtcpInvalidVersion hdr.version
          else .rtcpLengthMismatch hdr.packetLen rest.length)
      else
        match parseBody false hdr (slice rest headerSize hdr.packetLen) with
        | .error e => .fatal e
        | .ok item =>
          .unit hdr.packetLen () (rtcpObjection hdr (slice rest headerSize hdr.packetLen)) item

theorem rtcpHead_eq_unit {rest : Bytes} {size : Nat} {objection : Option Error}
    {item : Option RtcpPacket} : rtcpHead rest = .unit size () objection item ↔
      ∃ hdr, headerSize ≤ rest.length ∧ readHeader rest 0 = .ok hdr ∧
        hdr.packetLen = size ∧ size ≤ rest.length ∧
        parseBody false hdr (slice rest headerSize size) = .ok item ∧
        rtcpObjection hdr (slice rest headerSize size) = objection := by
  unfold rtcpHead
  by_cases hroom : rest.length < headerSize
  · rw [if_pos hroom]
    constructor
    · intro h
      cases h
    · rintro ⟨_, hle, _⟩
      omega
  · rw [if_neg hroom]
    have hread : ∃ hdr, readHeader rest 0 = .ok hdr := exists_readHeader (by omega)
    obtain ⟨hdr, hhdr⟩ := hread
    rw [hhdr]
    dsimp only
    by_cases hlen : rest.length < hdr.packetLen
    · rw [if_pos hlen]
      constructor
      · intro h
        cases h
      · rintro ⟨_, _, hhdr', rfl, hle, _⟩
        cases hhdr'
        omega
    · rw [if_neg hlen]
      obtain ⟨item', hitem, -⟩ := parseBody_modes hdr (slice rest headerSize hdr.packetLen)
      rw [hitem]
      constructor
      · intro h
        cases h
        exact ⟨hdr, by omega, rfl, rfl, by omega, hitem, rfl⟩
      · rintro ⟨_, _, hhdr', rfl, _, hitem', rfl⟩
        cases hhdr'
        rw [hitem] at hitem'
        cases hitem'
        rfl

theorem rtcpHead_ne_fatal (rest : Bytes) (e : Error) : rtcpHead rest ≠ .fatal e := by
  unfold rtcpHead
  by_cases hroom : rest.length < headerSize
  · rw [if_pos hroom]
    simp
  · rw [if_neg hroom]
    have hread : ∃ hdr, readHeader rest 0 = .ok hdr := exists_readHeader (by omega)
    obtain ⟨hdr, hhdr⟩ := hread
    obtain ⟨item, hitem, -⟩ := parseBody_modes hdr (slice rest headerSize hdr.packetLen)
    rw [hhdr]
    dsimp only
    rw [hitem]
    split
    next => simp
    next => simp

theorem readHeader_append_left {x : Bytes} (h : headerSize ≤ x.length) (y : Bytes) :
    readHeader (x ++ y) 0 = readHeader x 0 := by
  simp only [headerSize] at h
  unfold readHeader
  rw [getByte_append_left (by omega), getByte_append_left (by omega),
    unpackFrom_append_left (by simp only [Fmt.size_H]; omega)]

theorem readHeader_drop {data : Bytes} {off : Nat} (h : off + headerSize ≤ data.length) :
    readHeader (data.drop off) 0 = readHeader data off := by
  simp only [headerSize] at h
  unfold readHeader
  rw [getByte_drop, getByte_drop, unpackFrom_drop (by simp only [Fmt.size_H]; omega)]
  rfl

theorem headerSize_le_packetLen (hdr : RtcpHeader) : headerSize ≤ hdr.packetLen := by
  simp only [headerSize, RtcpHeader.packetLen]
  omega

theorem rtcpHeaderSpec :
    HeaderSpec (fun _ : Unit => rtcpHead) headerSize (fun _ rest => readHeader rest 0)
      RtcpHeader.packetLen (fun hdr packet _ objection item =>
        parseBody false hdr (slice packet headerSize packet.length) = .ok item ∧
          rtcpObjection hdr (slice packet headerSize packet.length) = objection) where
  pos := by decide
  fromFront h y := readHeader_append_left h y
  unit := by
    intro s rest n after objection item
    rw [rtcpHead_eq_unit]
    refine exists_congr fun hdr => ?_
    constructor
    · rintro ⟨hroom, hhdr, rfl, hle, hitem, hobjection⟩
      refine ⟨hroom, hhdr, rfl, headerSize_le_packetLen hdr, hle, ?_⟩
      rw [List.length_take, Nat.min_eq_left hle, slice_take _ _ (Nat.le_refl _)]
      exact ⟨hitem, hobjection⟩
    · rintro ⟨hroom, hhdr, rfl, -, hle, hyields⟩
      rw [List.length_take, Nat.min_eq_left hle, slice_take _ _ (Nat.le_refl _)] at hyields
      exact ⟨hroom, hhdr, rfl, hle, hyields⟩
  tooShort h := ⟨_, if_pos h⟩
  overrun := by
    intro _ rest hdr hroom hhdr hover
    unfold rtcpHead
    rw [if_neg (by omega), hhdr]
    exact ⟨_, if_pos hover⟩

/-- RTCP packets as units: the bytes of a packet alone decide how it is read. -/
def rtcpFraming : Framing Unit UInt8 RtcpPacket Error where
  head _ rest := rtcpHead rest
  progress h := rtcpHeaderSpec.progress (s := ()) h
  stable h tail := rtcpHeaderSpec.stable (s := ()) h tail
  short h k _ hk := rtcpHeaderSpec.short (s := ()) h k hk

theorem rtcpFraming_head (rest : Bytes) : rtcpFraming.head () rest = rtcpHead rest := rfl

section Loop

variable {strict : Bool} {data : Bytes} {off : Nat}

theorem parseLoop_past (h : data.length ≤ off) : parseLoop strict data off = .ok [] := by
  rw [parseLoop, dif_neg (by omega)]
  rfl

theorem parseLoop_short (hlt : off < data.length) (h : data.length - off < headerSize) :
    parseLoop strict data off =
      if strict then .error (.rtcpBufferTooShort headerSize (data.length - off)) else .ok [] := by
  rw [parseLoop, dif_pos hlt]
  dsimp only
  rw [if_pos h]
  rfl

theorem parseLoop_over {hdr : RtcpHeader} (hroom : off + headerSize ≤ data.length)
    (hhdr : readHeader data off = .ok hdr) (h : data.length < off + hdr.packetLen) :
    parseLoop strict data off =
      if strict then .error (if hdr.version ≠ 2 then .rtcpInvalidVersion hdr.version
        else .rtcpLengthMismatch hdr.packetLen (data.length - off)) else .ok [] := by
  have hsize : ¬data.length - off < headerSize := by omega
  simp only [headerSize] at hroom
  rw [parseLoop, dif_pos (by omega)]
  dsimp only
  rw [if_neg hsize, hhdr, bind_ok]
  cases strict with
  | false =>
    rw [if_neg (by simp), if_pos h]
    rfl
  | true =>
    by_cases hversion : hdr.version = 2
    · rw [if_neg (by simp [hversion]), if_pos h]
      simp [hversion]
    · rw [if_pos ⟨hversion, rfl⟩]
      simp [hversion]

/-- Over a packet that is all there, strict mode raises its objection and both modes go on
with the same packet. -/
theorem parseLoop_whole {hdr : RtcpHeader} {item : Option RtcpPacket}
    (hroom : off + headerSize ≤ data.length) (hhdr : readHeader data off = .ok hdr)
    (hlen : off + hdr.packetLen ≤ data.length)
    (hitem : parseBody false hdr (slice data (off + headerSize) (off + hdr.packetLen)) = .ok item) :
    parseLoop strict data off =
      match strict, rtcpObjection hdr (slice data (off + headerSize) (off + hdr.packetLen)) with
      | true, some e => .error e
      | _, _ => (item.toList ++ ·) <$> parseLoop strict data (off + hdr.packetLen) := by
  have hsize : ¬data.length - off < headerSize := by omega
  have hmap : ∀ strict, (do
      let packets ← parseLoop strict data (off + hdr.packetLen)
      pure (item.toList ++ packets)) =
        (item.toList ++ ·) <$> parseLoop strict data (off + hdr.packetLen) := by
    intro strict
    cases parseLoop strict data (off + hdr.packetLen) with
    | ok packets => rfl
    | error e => rfl
  simp only [headerSize] at hroom
  rw [parseLoop, dif_pos (by omega)]
  dsimp only
  rw [if_neg hsize, hhdr, bind_ok]
  cases strict with
  | false =>
    rw [if_neg (by simp), if_neg (by omega), hitem, bind_ok]
    exact hmap false
  | true =>
    unfold rtcpObjection
    by_cases hversion : hdr.version = 2
    · obtain ⟨item', hitem', hstrict⟩ :=
        parseBody_modes hdr (slice data (off + headerSize) (off + hdr.packetLen))
      rw [hitem] at hitem'
      cases hitem'
      rw [if_neg (by simp [hversion]), if_neg (by omega), if_neg (by simp [hversion])]
      rcases hstrict with hstrict | ⟨e, hstrict⟩
      · rw [hstrict, bind_ok]
        exact hmap true
      · rw [hstrict, bind_error]
    · rw [if_pos ⟨hversion, rfl⟩, if_pos hversion]

theorem rtcpHead_short (h : data.length - off < headerSize) :
    rtcpHead (data.drop off) = .cut (.rtcpBufferTooShort headerSize (data.length - off)) := by
  rw [rtcpHead, List.length_drop, if_pos h]

theorem rtcpHead_over {hdr : RtcpHeader} (hroom : off + headerSize ≤ data.length)
    (hhdr : readHeader data off = .ok hdr) (h : data.length < off + hdr.packetLen) :
    rtcpHead (data.drop off) = .cut (if hdr.version ≠ 2 then .rtcpInvalidVersion hdr.version
      else .rtcpLengthMismatch hdr.packetLen (data.length - off)) := by
  rw [rtcpHead, List.length_drop, if_neg (by omega), readHeader_drop hroom, hhdr]
  dsimp only
  rw [if_pos (by omega)]

theorem rtcpHead_whole {hdr : RtcpHeader} {item : Option RtcpPacket}
    (hroom : off + headerSize ≤ data.length) (hhdr : readHeader data off = .ok hdr)
    (hlen : off + hdr.packetLen ≤ data.length)
    (hitem : parseBody false hdr (slice data (off + headerSize) (off + hdr.packetLen)) = .ok item) :
    rtcpHead (data.drop off) = .unit hdr.packetLen ()
      (rtcpObjection hdr (slice data (off + headerSize) (off + hdr.packetLen))) item := by
  have hdrop : (data.drop off).length = data.length - off := List.length_drop
  refine rtcpHead_eq_unit.mpr ⟨hdr, by omega, ?_, rfl, by omega, ?_, ?_⟩
  · rw [readHeader_drop hroom, hhdr]
  · rw [slice_drop, hitem]
  · rw [slice_drop]

/-- The loop at an offset reads the units of the bytes from there on. -/
theorem parseLoop_eq_run :
    parseLoop strict data off = (rtcpFraming.run strict () (data.drop off)).toExcept := by
  refine Framing.run_drop_eq (f := fun _ off => parseLoop strict data off) Yielded.toExcept
    (fun items rest => (items ++ ·) <$> rest) Yielded.toExcept_prepend ?_ ?_ () off
  · intro _ off hpast
    exact parseLoop_past hpast
  · intro _ off hlt
    rw [rtcpFraming_head]
    by_cases hshort : data.length - off < headerSize
    · rw [parseLoop_short hlt hshort, rtcpHead_short hshort]
      cases strict with
      | true => rfl
      | false => rfl
    have hroom : off + headerSize ≤ data.length := by
      simp only [headerSize] at hshort ⊢
      omega
    obtain ⟨hdr, hhdr⟩ := exists_readHeader hroom
    by_cases hover : data.length < off + hdr.packetLen
    · rw [parseLoop_over hroom hhdr hover, rtcpHead_over hroom hhdr hover]
      cases strict with
      | true => rfl
      | false => rfl
    · obtain ⟨item, hitem, -⟩ :=
        parseBody_modes hdr (slice data (off + headerSize) (off + hdr.packetLen))
      have hlen : off + hdr.packetLen ≤ data.length := by omega
      rw [parseLoop_whole hroom hhdr hlen hitem, rtcpHead_whole hroom hhdr hlen hitem]
      cases strict with
      | true =>
        cases rtcpObjection hdr (slice data (off + headerSize) (off + hdr.packetLen)) with
        | none => rfl
        | some e => rfl
      | false => rfl

end Loop

end Rtpkit

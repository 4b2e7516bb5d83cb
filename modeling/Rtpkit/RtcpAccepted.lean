import Rtpkit.RtcpRoundTrip

namespace Rtpkit

open Outcome Chunk Alignment

theorem parseReportBlock_buildable {data : Bytes} {off : Nat} {rb : ReportBlock}
    (h : parseReportBlock data off = .ok rb) : rb.Buildable := by
  simp only [parseReportBlock, bind_eq_ok] at h
  obtain ⟨ssrc, rs, word, rw, highest, rh, jitter, rj, lastSr, rl, dlsr, rd, h⟩ := h
  cases pure_eq_ok.mp h
  have hword := Fmt.fits_I.mp (unpackFrom_spec rw).1
  have hhigh : (word >>> 24) &&& 0xFF ≤ 0xFF := Nat.and_le_right
  have hlow : word &&& 0xFFFFFF ≤ 0xFFFFFF := Nat.and_le_right
  refine ⟨(unpackFrom_spec rs).1, ?_, ?_, (unpackFrom_spec rh).1, (unpackFrom_spec rj).1,
    (unpackFrom_spec rl).1, (unpackFrom_spec rd).1⟩
  · simp only [u8]
    omega
  · have hsign := and_signBit (n := word &&& 0xFFFFFF) (by omega)
    simp only [i24Min, i24Max]
    split
    next hs => have := hsign.mp hs; omega
    next hs => have := mt hsign.mpr hs; omega

theorem parseReportBlocks_spec {data : Bytes} {rc : Nat} {blocks : List ReportBlock}
    (h : parseReportBlocks data rc = .ok blocks) :
    blocks.length = rc ∧ (∀ rb ∈ blocks, rb.Buildable) ∧ rc * reportBlockSize ≤ data.length := by
  simp only [parseReportBlocks, bind_eq_ok, require_eq_ok, exists_const] at h
  obtain ⟨hle, h⟩ := h
  obtain ⟨hlen, hmem⟩ := mapM_mem h
  refine ⟨by simpa using hlen, ?_, hle⟩
  intro rb hrb
  obtain ⟨i, _, hi⟩ := hmem rb hrb
  exact parseReportBlock_buildable hi

/-- What a body parser returns can be serialized again, into no more bytes than were read. -/
structure RtcpPacket.ReadFrom (pkt : RtcpPacket) (content : Bytes) : Prop where
  buildable : pkt.BodyBuildable
  shorter : pkt.body.length ≤ content.length
  aligned : content.length % 4 = 0 → pkt.DataAligned

theorem parseSr_spec {content : Bytes} {rc : Nat} {padding : Int} {pkt : SenderReport}
    (h : parseSr content rc padding = .ok pkt) (hrc : rc ≤ maxCount) :
    (RtcpPacket.senderReport pkt).ReadFrom content ∧ pkt.paddingSize = padding := by
  simp only [parseSr, bind_eq_ok, require_eq_ok, exists_const] at h
  obtain ⟨hle, ssrc, r0, sec, r1, frac, r2, ts, r3, pkts, r4, octets, r5, blocks, rb, h⟩ := h
  cases pure_eq_ok.mp h
  obtain ⟨hlen, hblocks, hroom⟩ := parseReportBlocks_spec rb
  rw [length_slice] at hroom
  refine ⟨⟨⟨(unpackFrom_spec r0).1, ⟨(unpackFrom_spec r1).1, (unpackFrom_spec r2).1,
    (unpackFrom_spec r3).1, (unpackFrom_spec r4).1, (unpackFrom_spec r5).1⟩,
    by simpa only [hlen] using hrc, hblocks⟩, ?_, fun _ => trivial⟩, rfl⟩
  simp only [RtcpPacket.body, List.length_append, Fmt.length_wire, Fmt.size_I,
    SenderInfo.length_wire, length_flatten_blocks, hlen]
  omega

theorem parseRr_spec {content : Bytes} {rc : Nat} {padding : Int} {pkt : ReceiverReport}
    (h : parseRr content rc padding = .ok pkt) (hrc : rc ≤ maxCount) :
    (RtcpPacket.receiverReport pkt).ReadFrom content ∧ pkt.paddingSize = padding := by
  simp only [parseRr, bind_eq_ok, require_eq_ok, exists_const] at h
  obtain ⟨hle, ssrc, r0, blocks, rb, h⟩ := h
  cases pure_eq_ok.mp h
  obtain ⟨hlen, hblocks, hroom⟩ := parseReportBlocks_spec rb
  rw [length_slice] at hroom
  refine ⟨⟨⟨(unpackFrom_spec r0).1, by simpa only [hlen] using hrc, hblocks⟩, ?_,
    fun _ => trivial⟩, rfl⟩
  simp only [RtcpPacket.body, List.length_append, Fmt.length_wire, Fmt.size_I,
    length_flatten_blocks, hlen]
  omega

/-- The items that are read stand at the offset, up to their null byte. -/
theorem parseSdesItems_spec {content : Bytes} {pos next : Nat} {items : List SdesItem}
    (h : parseSdesItems content pos = .ok (items, next)) :
    (∀ item ∈ items, item.Buildable) ∧
      StandsAt content pos ((items.map SdesItem.wire).flatten ++ [0]) ∧
      next = pos + (items.map SdesItem.wire).flatten.length + 1 := by
  induction hn : content.length - pos using Nat.strong_induction_on generalizing pos items with
  | _ n ih =>
    rw [parseSdesItems] at h
    split at h
    next => simp at h
    next hpos =>
      obtain ⟨itemType, rt, h⟩ := bind_eq_ok.mp h
      obtain ⟨ht, htypeAt⟩ := getByte_spec rt
      split at h
      next hnull =>
        obtain ⟨rfl, rfl⟩ := Prod.mk.inj (pure_eq_ok.mp h)
        rw [hnull] at htypeAt
        exact ⟨by simp, htypeAt, by simp⟩
      next htype =>
        simp only [bind_eq_ok, require_eq_ok, exists_const] at h
        obtain ⟨_, itemLen, rl, hend, ⟨rest, next'⟩, hrest, h⟩ := h
        obtain ⟨rfl, rfl⟩ := Prod.mk.inj (pure_eq_ok.mp h)
        obtain ⟨hvalid, hrestAt, hnext⟩ := ih _ (by omega) hrest rfl
        obtain ⟨hl, hlenAt⟩ := getByte_spec rl
        have htext : (slice content (pos + 2) (pos + 2 + itemLen)).length = itemLen :=
          length_slice_add (by omega)
        have htextAt := standsAt_slice content (Nat.le_add_right (pos + 2) itemLen) hend
        generalize slice content (pos + 2) (pos + 2 + itemLen) = text at htext htextAt ⊢
        subst htext
        refine ⟨?_, ?_, ?_⟩
        · intro item hitem
          rcases List.mem_cons.mp hitem with rfl | hitem
          · refine ⟨?_, ?_⟩
            · simp only [u8]
              omega
            · simp only [u8]
              omega
          · exact hvalid item hitem
        · simp only [List.map_cons, List.flatten_cons, List.append_assoc, SdesItem.wire,
            standsAt_append, Fmt.length_wire, Fmt.size_B, Nat.add_assoc, Nat.reduceAdd]
          simp only [standsAt_append, Nat.add_assoc] at hrestAt
          exact ⟨htypeAt, hlenAt, htextAt, hrestAt⟩
        · simp only [List.map_cons, List.flatten_cons, List.length_append, SdesItem.length_wire]
          omega

theorem parseSdesChunks_spec {content : Bytes} {sc off : Nat} {chunks : List SdesChunk}
    (h : parseSdesChunks content sc off = .ok chunks) (hoff : off ≤ content.length) :
    ∃ parts : List SdesPart, parts.length = sc ∧ parts.map SdesPart.chunk = chunks ∧
      StandsAt content off (parts.map SdesPart.bytes).flatten := by
  induction sc generalizing off chunks with
  | zero =>
    cases pure_eq_ok.mp h
    exact ⟨[], rfl, rfl, standsAt_nil.mpr hoff⟩
  | succ sc ih =>
    simp only [parseSdesChunks, bind_eq_ok, require_eq_ok, exists_const] at h
    obtain ⟨_, ssrc, rs, ⟨items, pos⟩, hitems, hpad, rest, hrest, h⟩ := h
    cases pure_eq_ok.mp h
    dsimp only at hpad hrest
    obtain ⟨hfits, hssrcAt⟩ := unpackFrom_spec rs
    obtain ⟨hvalid, hitemsAt, hpos⟩ := parseSdesItems_spec hitems
    obtain ⟨parts, hlen, hchunks, hpartsAt⟩ := ih hrest hpad
    have hraw := SdesChunk.length_raw { ssrc := ssrc, items := items }
    dsimp only at hraw
    have hend : off + (SdesChunk.raw { ssrc := ssrc, items := items }).length = pos := by
      rw [hraw]
      omega
    have hsub : pos - off = (SdesChunk.raw { ssrc := ssrc, items := items }).length := by omega
    rw [hsub, alignPad_eq] at hpad hpartsAt
    have haligned := fills_fill 4
      (SdesChunk.raw { ssrc := ssrc, items := items }).length
    rw [← length_slice_add hpad] at haligned
    refine ⟨⟨⟨ssrc, items⟩, _, ⟨hfits, hvalid⟩, haligned⟩ :: parts, by simp [hlen],
      by rw [List.map_cons, hchunks], ?_⟩
    rw [List.map_cons, List.flatten_cons, SdesPart.bytes, standsAt_append, standsAt_append]
    refine ⟨⟨standsAt_append.mpr ⟨hssrcAt, ?_⟩, ?_⟩, ?_⟩
    · rwa [Fmt.length_wire, Fmt.size_I]
    · rw [hend]
      exact standsAt_slice content (Nat.le_add_right _ _) hpad
    · rwa [List.length_append, length_slice_add hpad, ← Nat.add_assoc, hend]

theorem length_parts (parts : List SdesPart) : (parts.map SdesPart.bytes).flatten.length =
    ((parts.map SdesPart.chunk).map SdesChunk.wire).flatten.length := by
  induction parts with
  | nil => rfl
  | cons part parts ih =>
    simp only [List.map_cons, List.flatten_cons, List.length_append, ih, part.length_bytes]

theorem parseSdes_spec {content : Bytes} {sc : Nat} {padding : Int} {pkt : SourceDescription}
    (h : parseSdes content sc padding = .ok pkt) (hsc : sc ≤ maxCount) :
    (RtcpPacket.sourceDescription pkt).ReadFrom content ∧ pkt.paddingSize = padding := by
  obtain ⟨chunks, hchunks, h⟩ := bind_eq_ok.mp h
  cases pure_eq_ok.mp h
  obtain ⟨parts, rfl, rfl, hstands⟩ := parseSdesChunks_spec hchunks (by omega)
  have hroom := hstands.le_length
  rw [length_parts, Nat.zero_add] at hroom
  refine ⟨⟨⟨by simpa only [List.length_map] using hsc, ?_⟩, hroom, fun _ => trivial⟩, rfl⟩
  intro chunk hchunk
  obtain ⟨part, -, rfl⟩ := List.mem_map.mp hchunk
  exact part.buildable

theorem parseReason_spec {content : Bytes} {pos : Nat} {reason : Option Bytes}
    (h : parseReason content pos = .ok reason) (hpos : pos ≤ content.length) :
    (∀ r, reason = some r → (r.length : Int) ≤ u8) ∧
      pos + (reasonWire reason).length ≤ content.length := by
  unfold parseReason at h
  split at h
  next hlt =>
    simp only [bind_eq_ok, require_eq_ok, exists_const] at h
    obtain ⟨reasonLen, rl, hle, h⟩ := h
    cases pure_eq_ok.mp h
    have hl := getByte_lt rl
    have hlen : (slice content (pos + 1) (pos + 1 + reasonLen)).length = reasonLen :=
      length_slice_add (by omega)
    constructor
    · rintro r ⟨⟩
      simp only [hlen, u8]
      omega
    · simp only [reasonWire, List.length_append, Fmt.length_wire, Fmt.size_B, hlen]
      omega
  next =>
    cases pure_eq_ok.mp h
    exact ⟨by simp, by simpa [reasonWire] using hpos⟩

theorem parseBye_spec {content : Bytes} {sc : Nat} {padding : Int} {pkt : Goodbye}
    (h : parseBye content sc padding = .ok pkt) (hsc : sc ≤ maxCount) :
    (RtcpPacket.goodbye pkt).ReadFrom content ∧ pkt.paddingSize = padding := by
  simp only [parseBye, bind_eq_ok, require_eq_ok, exists_const] at h
  obtain ⟨hle, sources, hs, reason, hr, h⟩ := h
  cases pure_eq_ok.mp h
  obtain ⟨hlen, hfits, _⟩ := unpackMany_spec hs (Nat.zero_le _)
  obtain ⟨hreason, hroom⟩ := parseReason_spec hr hle
  refine ⟨⟨⟨by simpa only [hlen] using hsc, hfits, hreason⟩, ?_, fun _ => trivial⟩, rfl⟩
  simpa only [RtcpPacket.body, List.length_append, length_flatten_words, hlen] using hroom

theorem parseApp_spec {content : Bytes} {subtype : Nat} {padding : Int} {pkt : ApplicationDefined}
    (h : parseApp content subtype padding = .ok pkt) (hsub : subtype ≤ maxCount)
    (hascii : pkt.name.toList.all isAscii = true) :
    (RtcpPacket.applicationDefined pkt).ReadFrom content ∧ pkt.paddingSize = padding := by
  simp only [parseApp, bind_eq_ok, require_eq_ok, exists_const] at h
  obtain ⟨hle, ssrc, rs, h⟩ := h
  cases pure_eq_ok.mp h
  have hname := encodeAscii_decodeAscii hascii
  have hlen : (slice content 4 (4 + 4)).length = 4 := length_slice_add (by omega)
  refine ⟨⟨⟨⟨Int.natCast_nonneg _, Int.ofNat_le.mpr hsub⟩, ⟨_, hname, hlen⟩, (unpackFrom_spec rs).1⟩, ?_, ?_⟩,
    rfl⟩
  · simp only [RtcpPacket.body, hname, Option.getD_some, List.length_append, Fmt.length_wire,
      Fmt.size_I, length_slice]
    omega
  · intro hmod
    simp only [RtcpPacket.DataAligned, length_slice]
    omega

end Rtpkit

import Rtpkit.RtcpReportRoundTrip

namespace Rtpkit

open Outcome Chunk Alignment

theorem parseSdesItems_of_standsAt {items : List SdesItem} {content : Bytes} {pos : Nat}
    (hb : ∀ item ∈ items, item.Buildable)
    (h : StandsAt content pos ((items.map SdesItem.wire).flatten ++ [0])) :
    parseSdesItems content pos =
      .ok (items, pos + (items.map SdesItem.wire).flatten.length + 1) := by
  induction items generalizing pos with
  | nil =>
    have hle := h.le_length
    have hnull : getByte content pos = .ok 0 := by
      exact getByte_eq_ok.mpr ⟨0, standsAt_singleton.mp h, rfl⟩
    simp only [List.map_nil, List.flatten_nil, List.nil_append, List.length_cons,
      List.length_nil] at hle
    rw [parseSdesItems, dif_neg (by omega), hnull, bind_ok, if_pos rfl]
    rfl
  | cons item items ih =>
    have hitem := hb item (by simp)
    have hle := h.le_length
    simp only [List.map_cons, List.flatten_cons, List.append_assoc, SdesItem.wire, standsAt_append,
      Fmt.length_wire, Fmt.size_B, List.length_append, List.length_singleton] at h hle
    obtain ⟨ht, hl, htext, hitems, hend⟩ := h
    obtain ⟨itemType, rt, et⟩ := getByte_of_standsAt hitem.type_fits ht
    obtain ⟨itemLen, rl, el⟩ := getByte_of_standsAt hitem.text_fits hl
    have elen : itemLen = item.text.length := Int.ofNat.inj el
    have htype := hitem.type
    have hrest := ih (fun i hi => hb i (by simp [hi]))
      (standsAt_append.mpr ⟨hitems, hend⟩)
    have hslice := htext.slice_eq
    rw [parseSdesItems, dif_neg (by omega), rt, bind_ok, if_neg (by omega),
      require_pos (by omega), bind_ok, rl, bind_ok, elen]
    dsimp only
    rw [require_pos (by omega), bind_ok]
    simp only [Nat.add_assoc, Nat.reduceAdd] at hrest hslice ⊢
    rw [hrest, bind_ok, hslice, et]
    simp only [List.map_cons, List.flatten_cons, List.length_append, SdesItem.length_wire]
    congr 2
    omega

/-- The alignment of a chunk may hold any bytes. -/
theorem parseSdesChunks_of_parts {parts : List SdesPart} {content : Bytes} {off : Nat}
    (h : StandsAt content off (parts.map SdesPart.bytes).flatten) :
    parseSdesChunks content parts.length off = .ok (parts.map SdesPart.chunk) := by
  induction parts generalizing off with
  | nil => rfl
  | cons part parts ih =>
    have hc := part.buildable
    have hlen := SdesChunk.length_raw part.chunk
    simp only [List.map_cons, List.flatten_cons, standsAt_append, SdesPart.bytes,
      List.length_append, part.aligned.eq_fill] at h
    obtain ⟨⟨hraw, hpad⟩, hrest⟩ := h
    have hlepad := hpad.le_length
    rw [part.aligned.eq_fill] at hlepad
    simp only [SdesChunk.raw] at hraw
    obtain ⟨hs, hitems⟩ := standsAt_append.mp hraw
    rw [Fmt.length_wire, Fmt.size_I] at hitems
    obtain ⟨ssrc, rs, es⟩ := unpackFrom_of_standsAt hc.ssrc hs
    have ritems := parseSdesItems_of_standsAt hc.items hitems
    have hpos : off + 4 + (part.chunk.items.map SdesItem.wire).flatten.length + 1 =
        off + part.chunk.raw.length := by omega
    have hsub : off + part.chunk.raw.length - off = part.chunk.raw.length := by omega
    rw [hpos] at ritems
    rw [← Nat.add_assoc] at hrest
    rw [List.length_cons, parseSdesChunks, require_pos (by omega), bind_ok, rs, bind_ok, ritems]
    simp only [bind_ok, hsub, alignPad_eq]
    rw [require_pos hlepad, bind_ok, ih hrest, bind_ok, es]
    rfl

theorem parseSdesChunks_of_standsAt {chunks : List SdesChunk} {content : Bytes} {off : Nat}
    (hb : ∀ c ∈ chunks, c.Buildable)
    (h : StandsAt content off (chunks.map SdesChunk.wire).flatten) :
    parseSdesChunks content chunks.length off = .ok chunks := by
  have hbytes : (chunks.pmap SdesChunk.part hb).map SdesPart.bytes = chunks.map SdesChunk.wire := by
    have hwire : ∀ (chunk : SdesChunk) (h : chunk.Buildable),
        (chunk.part h).bytes = chunk.wire := fun _ _ => rfl
    rw [List.map_pmap]
    simp only [hwire, List.pmap_eq_map]
  have hchunks : (chunks.pmap SdesChunk.part hb).map SdesPart.chunk = chunks := by
    have hchunk : ∀ (chunk : SdesChunk) (h : chunk.Buildable),
        (chunk.part h).chunk = chunk := fun _ _ => rfl
    rw [List.map_pmap]
    simp only [hchunk, List.pmap_eq_map, List.map_id']
  rw [← hbytes] at h
  have hparse := parseSdesChunks_of_parts h
  rwa [List.length_pmap, hchunks] at hparse

theorem parseSdes_of_standsAt {pkt : SourceDescription} {content : Bytes}
    (hb : (RtcpPacket.sourceDescription pkt).BodyBuildable)
    (h : StandsAt content 0 (RtcpPacket.sourceDescription pkt).body) :
    parseSdes content pkt.chunks.length pkt.paddingSize = .ok pkt := by
  rw [parseSdes, parseSdesChunks_of_standsAt hb.2 h]
  rfl

theorem parseReason_of_standsAt {reason : Option Bytes} {content : Bytes} {pos : Nat}
    (hr : ∀ r, reason = some r → (r.length : Int) ≤ u8)
    (h : StandsAt content pos (reasonWire reason)) (hnone : reason = none → content.length = pos) :
    parseReason content pos = .ok reason := by
  unfold parseReason
  cases reason with
  | none =>
    rw [if_neg (by rw [hnone rfl]; omega)]
    rfl
  | some r =>
    have hlen := hr r rfl
    have hle := h.le_length
    simp only [u8] at hlen
    simp only [reasonWire, standsAt_append, Fmt.length_wire, Fmt.size_B, List.length_append]
      at h hle
    obtain ⟨n, rn, en⟩ := getByte_of_standsAt (Fmt.fits_B.mpr (by omega)) h.1
    cases Int.ofNat.inj en
    rw [if_pos (by omega), rn, bind_ok]
    dsimp only
    rw [require_pos (by omega), bind_ok, h.2.slice_eq]
    rfl

theorem parseBye_of_standsAt {pkt : Goodbye} {content : Bytes}
    (hb : (RtcpPacket.goodbye pkt).BodyBuildable)
    (h : StandsAt content 0 (RtcpPacket.goodbye pkt).body)
    (hlen : content.length = (RtcpPacket.goodbye pkt).body.length +
      fill 4 (RtcpPacket.goodbye pkt).body.length) :
    parseBye content pkt.sources.length pkt.paddingSize = .ok pkt := by
  obtain ⟨_, hsources, hreason⟩ := hb
  simp only [RtcpPacket.body, standsAt_append, length_flatten_words, List.length_append,
    Nat.zero_add] at h hlen
  have hnone : pkt.reason = none → content.length = pkt.sources.length * 4 := by
    intro hn
    simp only [hn, reasonWire, List.length_nil, Nat.add_zero] at hlen
    rw [hlen, fill_eq_zero (Nat.mul_mod_left _ 4), Nat.add_zero]
  simp only [parseBye]
  rw [require_pos (by omega), bind_ok, unpackMany_of_standsAt hsources h.1, bind_ok,
    parseReason_of_standsAt hreason h.2 hnone]
  rfl

theorem parseApp_of_body {pkt : ApplicationDefined}
    (hb : (RtcpPacket.applicationDefined pkt).BodyBuildable) :
    parseApp (RtcpPacket.applicationDefined pkt).body pkt.subtype.toNat pkt.paddingSize
      = .ok pkt := by
  obtain ⟨⟨hsub, _⟩, ⟨name, hname, hlen⟩, hs⟩ := hb
  have h := standsAt_self (RtcpPacket.applicationDefined pkt).body
  have hle := h.le_length
  simp only [RtcpPacket.body, hname, Option.getD_some] at h hle ⊢
  simp only [standsAt_append, Fmt.length_wire, Fmt.size_I, hlen, Nat.zero_add,
    List.length_append] at h hle
  obtain ⟨hssrc, hnameAt, hdata⟩ := h
  obtain ⟨ssrc, rs, es⟩ := unpackFrom_of_standsAt hs hssrc
  have sname := hnameAt.slice_eq
  have sdata := hdata.slice_eq
  rw [hlen] at sname
  have hend : 4 + 4 + pkt.data.length = (Fmt.wire .I pkt.ssrc ++ (name ++ pkt.data)).length := by
    simp only [List.length_append, Fmt.length_wire, Fmt.size_I, hlen]
    omega
  rw [hend] at sdata
  rw [parseApp, require_pos (by omega), bind_ok, rs, bind_ok, sname, sdata,
    decodeAscii_encodeAscii hname, es, Int.toNat_of_nonneg hsub]
  rfl

end Rtpkit

import Rtpkit.RtpRoundTrip

namespace Rtpkit

open Outcome Chunk

namespace RtpBuilder

/-- A builder configured from the fields of a parsed packet. -/
def ofPacket (p : RtpPacket) : RtpBuilder :=
  let b := ({} : RtpBuilder).withMarker p.marker |>.withPayloadType p.payloadType
    |>.withSequenceNumber p.sequenceNumber |>.withTimestamp p.timestamp |>.withSsrc p.ssrc
    |>.withCsrc p.csrc |>.withPayload p.payload |>.withPadding p.paddingSize
  match p.headerExtension with
  | none => b
  | some ext => b.withExtension ext.profile ext.data

theorem ofPacket_eq (p : RtpPacket) : ofPacket p = {
    version := 2, padding := p.paddingSize, marker := p.marker, payloadType := p.payloadType,
    seq := p.sequenceNumber, timestamp := p.timestamp, ssrc := p.ssrc, csrc := p.csrc,
    extProfile := p.headerExtension.map (·.profile),
    extData := (p.headerExtension.map (·.data)).getD [], payload := p.payload } := by
  unfold ofPacket
  cases p.headerExtension with
  | none => rfl
  | some ext => rfl

/-- Equal length, and equal bytes except perhaps in the padding before its last byte. -/
def AgreesOutsideFiller (d image : Bytes) (padding : Int) : Prop :=
  d.length = image.length ∧
    ∀ i < d.length, ((i : Int) + padding < d.length ∨ i + 1 = d.length) → d[i]? = image[i]?

theorem agreesOutsideFiller_wire {b : RtpBuilder} (hv : b.Valid) {d : Bytes} :
    AgreesOutsideFiller d b.wire b.padding ↔
      ∃ filler : Bytes, filler.length = (b.padding - 1).toNat ∧
        d = b.head ++ tail b.padding filler := by
  have hrange := hv.padding
  have hlen : b.wire.length = b.head.length + b.padding.toNat := by
    rw [wire, List.length_append, length_tail (by simp)]
  unfold AgreesOutsideFiller
  by_cases hp : 0 < b.padding
  · have htail : ∀ filler, b.head ++ tail b.padding filler =
        b.head ++ (filler ++ Fmt.wire .B b.padding) := fun filler => by rw [tail, if_pos hp]
    have hagrees := agrees_outside_iff (d := d) (x := b.head)
      (f := List.replicate (b.padding - 1).toNat 0) (y := Fmt.wire .B b.padding)
    simp only [← htail, List.length_replicate] at hagrees
    rw [← hagrees, ← wire]
    clear hagrees
    constructor
    · rintro ⟨hl, hsame⟩
      exact ⟨hl, fun i hi hout => hsame i hi (by omega)⟩
    · rintro ⟨hl, hsame⟩
      exact ⟨hl, fun i hi hout => hsame i hi (by omega)⟩
  · have htail : ∀ filler, tail b.padding filler = [] := fun filler => if_neg hp
    have hwire : b.wire = b.head := by rw [wire, htail, List.append_nil]
    rw [hwire]
    simp only [htail, List.append_nil]
    constructor
    · rintro ⟨hl, hsame⟩
      refine ⟨[], by simp only [List.length_nil]; omega, List.ext_getElem? fun i => ?_⟩
      by_cases hi : i < d.length
      · exact hsame i hi (by omega)
      · rw [List.getElem?_eq_none (by omega), List.getElem?_eq_none (by omega)]
    · rintro ⟨_, _, rfl⟩
      exact ⟨rfl, fun _ _ _ => rfl⟩

theorem readRtpPadding_strict {flag : Bool} {d : Bytes} {offset n : Nat}
    (h : readRtpPadding true flag d offset = .ok n) (hoff : offset ≤ d.length) :
    n ≤ 255 ∧ offset + n ≤ d.length ∧ decide (0 < n) = flag ∧
      (0 < n → StandsAt d (d.length - 1) (Fmt.wire .B n)) := by
  unfold readRtpPadding at h
  split at h
  next hflag =>
    dsimp only at h
    split at h
    next => simp at h
    obtain ⟨padCount, hread, h⟩ := bind_eq_ok.mp h
    obtain ⟨hlt, hstands⟩ := getByte_spec hread
    split at h
    next => simp at h
    split at h
    next => simp at h
    cases pure_eq_ok.mp h
    refine ⟨by omega, by omega, ?_, fun _ => hstands⟩
    rw [hflag]
    exact decide_eq_true (by omega)
  next hflag =>
    cases pure_eq_ok.mp h
    simpa [hflag] using hoff

/-- In strict mode an extension is read exactly when its flag is set, and its bytes stand
at the offset. -/
theorem readExtension_strict {flag : Bool} {d : Bytes} {offset offset' : Nat}
    {ext : Option HeaderExtension} (h : readExtension true flag d offset = .ok (ext, offset'))
    (hoff : offset ≤ d.length) :
    ext.isSome = flag ∧ offset' ≤ d.length ∧
      (∀ e, ext = some e → ExtensionValid e.data e.profile) ∧
      StandsAt d offset (extensionWire ((ext.map (·.data)).getD []) (ext.map (·.profile))) ∧
      offset' = offset +
        (extensionWire ((ext.map (·.data)).getD []) (ext.map (·.profile))).length := by
  unfold readExtension at h
  split at h
  next hflag =>
    dsimp only at h
    split at h
    next => simp at h
    obtain ⟨profile, hprofile, h⟩ := bind_eq_ok.mp h
    obtain ⟨words, hwords, h⟩ := bind_eq_ok.mp h
    split at h
    next => simp at h
    obtain ⟨rfl, rfl⟩ := Prod.mk.inj (pure_eq_ok.mp h)
    obtain ⟨fprofile, sprofile⟩ := unpackFrom_spec hprofile
    obtain ⟨fwords, swords⟩ := unpackFrom_spec hwords
    have hw := Fmt.fits_H.mp fwords
    have hlen : (slice d (offset + 4) (offset + 4 + words * 4)).length = words * 4 :=
      length_slice_add (by omega)
    have hdata := standsAt_slice d (a := offset + 4) (b := offset + 4 + words * 4)
      (by omega) (by omega)
    have hcount : words * 4 / 4 = words := by omega
    generalize slice d (offset + 4) (offset + 4 + words * 4) = body at hlen hdata ⊢
    refine ⟨hflag.symm, by omega, ?_, ?_, ?_⟩
    · rintro e ⟨⟩
      exact ⟨Fmt.fits_H.mp fprofile, by simp only [hlen]; omega, by simp only [hlen]; omega⟩
    · simp only [Option.map_some, Option.getD_some, extensionWire, standsAt_append,
        Fmt.length_wire, Fmt.size_H, Nat.add_assoc, Nat.reduceAdd, hlen, hcount]
      exact ⟨sprofile, swords, hdata⟩
    · simp only [Option.map_some, Option.getD_some, extensionWire, List.length_append,
        Fmt.length_wire, Fmt.size_H, hlen]
      omega
  next hflag =>
    obtain ⟨rfl, rfl⟩ := Prod.mk.inj (pure_eq_ok.mp h)
    simpa [extensionWire, hflag] using hoff

/-- The first byte is determined by the fields that are read from it. -/
theorem byte0_of_fields : ∀ first < 256, (first >>> 6) &&& 0x03 = 2 →
    (2 <<< 6) ||| ((decide ((first >>> 5) &&& 0x01 ≠ 0)).toNat <<< 5) |||
      ((decide ((first >>> 4) &&& 0x01 ≠ 0)).toNat <<< 4) ||| ((first &&& 0x0F) &&& 0x0F) =
      first := by
  decide +kernel

theorem byte1_of_fields : ∀ second < 256,
    ((decide ((second >>> 7) &&& 0x01 ≠ 0)).toNat <<< 7) ||| (second &&& 0x7F) = second := by
  decide +kernel

theorem byte0_eq_of_fields {b : RtpBuilder} {first : Nat} (hlt : first < 256)
    (hfirst : (first >>> 6) &&& 0x03 = 2) (hversion : b.version = 2)
    (hpadding : (0 < b.padding : Bool) = decide ((first >>> 5) &&& 0x01 ≠ 0))
    (hextension : b.extProfile.isSome = decide ((first >>> 4) &&& 0x01 ≠ 0))
    (hcsrc : b.csrc.length = first &&& 0x0F) : b.byte0 = first := by
  have htwo : ((2 : Int) % 4).toNat = 2 := rfl
  rw [byte0, hversion, htwo, hpadding, hextension, hcsrc]
  exact byte0_of_fields first hlt hfirst

theorem byte1_eq_of_fields {b : RtpBuilder} {second : Nat} (hlt : second < 256)
    (hmarker : b.marker = decide ((second >>> 7) &&& 0x01 ≠ 0))
    (hpayloadType : b.payloadType = (second &&& 0x7F : Nat)) : b.byte1 = second := by
  have hle : second &&& 0x7F ≤ 0x7F := Nat.and_le_right
  have hmod : (((second &&& 0x7F : Nat) : Int) % 0x80).toNat = second &&& 0x7F := by omega
  rw [byte1, hmarker, hpayloadType, hmod]
  exact byte1_of_fields second hlt

/-- Data that starts with a head and whose last byte counts the rest is the head and a
padding of some filler. -/
theorem exists_filler {d front : Bytes} {padding : Nat} (hfront : StandsAt d 0 front)
    (hlen : front.length = d.length - padding) (hle : padding ≤ d.length)
    (hlast : 0 < padding → StandsAt d (d.length - 1) (Fmt.wire .B padding)) :
    ∃ filler : Bytes, filler.length = ((padding : Int) - 1).toNat ∧
      d = front ++ tail padding filler := by
  have hflen : (slice d (d.length - padding) (d.length - 1)).length = padding - 1 := by
    rw [length_slice]
    omega
  have htail : StandsAt d (d.length - padding)
      (tail padding (slice d (d.length - padding) (d.length - 1))) := by
    unfold tail
    split
    next hp =>
      have hfiller := standsAt_slice d (a := d.length - padding) (b := d.length - 1)
        (by omega) (by omega)
      have hat : d.length - padding + (padding - 1) = d.length - 1 := by omega
      rw [standsAt_append, hflen, hat]
      exact ⟨hfiller, hlast (by omega)⟩
    next hp =>
      rw [standsAt_nil]
      omega
  refine ⟨slice d (d.length - padding) (d.length - 1), by omega, ?_⟩
  apply StandsAt.eq_of_length
  · rw [standsAt_append, Nat.zero_add, hlen]
    exact ⟨hfront, htail⟩
  · rw [List.length_append, hlen, length_tail (by omega)]
    omega

/-- Every header bit, and every byte but the filler, is accounted for by the parsed fields. -/
theorem parse_strict_parts {d : Bytes} {p : RtpPacket} (h : parseRtp d = .ok p) :
    (ofPacket p).Valid ∧ ∃ filler : Bytes, filler.length = ((ofPacket p).padding - 1).toNat ∧
      d = (ofPacket p).head ++ tail (ofPacket p).padding filler := by
  simp only [parseRtp, parse, bind_eq_ok, require_eq_ok, exists_const] at h
  obtain ⟨hroom, first, r0, second, r1, seq, r2, ts, r3, ssrc, r4, hversion, cc, rcc, csrc, rcsrc,
    ⟨ext, offset⟩, rext, padding, rpad, h⟩ := h
  cases pure_eq_ok.mp h
  simp only [fixedHeaderSize] at hroom
  obtain ⟨hlt0, s0⟩ := getByte_spec r0
  obtain ⟨hlt1, s1⟩ := getByte_spec r1
  obtain ⟨f2, s2⟩ := unpackFrom_spec r2
  obtain ⟨f3, s3⟩ := unpackFrom_spec r3
  obtain ⟨f4, s4⟩ := unpackFrom_spec r4
  obtain ⟨rfl, hcc⟩ := readCsrcCount_strict rcc
  obtain ⟨hcount, fcsrc, scsrc⟩ := unpackMany_spec rcsrc hroom
  dsimp only at rpad
  obtain ⟨hext, hoffset, vext, sext, eoffset⟩ := readExtension_strict rext hcc
  obtain ⟨h255, hend, hflag, hlast⟩ := readRtpPadding_strict rpad hoffset
  have hpt : second &&& 0x7F ≤ 0x7F := Nat.and_le_right
  have hcc15 : first &&& 0x0F ≤ 0x0F := Nat.and_le_right
  generalize hb : ofPacket _ = b
  have hfields := hb.symm.trans (ofPacket_eq _)
  dsimp only at hfields
  have hpos : decide (0 < (padding : Int)) = decide (0 < padding) := by simp
  have hb0 : b.byte0 = first := by
    refine byte0_eq_of_fields hlt0 (by simpa using hversion) (by rw [hfields]) ?_ ?_ ?_
    · rw [hfields, hpos, hflag]
    · rw [hfields, Option.isSome_map, hext]
    · rw [hfields, hcount]
  have hb1 : b.byte1 = second :=
    byte1_eq_of_fields hlt1 (by rw [hfields]) (by rw [hfields])
  have hpayload := standsAt_slice d (a := offset) (b := d.length - padding) (by omega)
    (by omega)
  have hplen : (slice d offset (d.length - padding)).length = d.length - padding - offset := by
    rw [length_slice]
    omega
  constructor
  · rw [hfields]
    refine ⟨show 0 ≤ (2 : Int) ∧ (2 : Int) ≤ 3 by decide,
      show 0 ≤ ((second &&& 0x7F : Nat) : Int) ∧ ((second &&& 0x7F : Nat) : Int) ≤ 127 by omega,
      Fmt.fits_H.mp f2, Fmt.fits_I.mp f3, Fmt.fits_I.mp f4, by rw [hcount]; exact hcc15,
      fun c hc => Fmt.fits_I.mp (fcsrc c hc), ?_,
      show 0 ≤ (padding : Int) ∧ (padding : Int) ≤ 255 by omega⟩
    intro profile hprofile
    obtain ⟨e, rfl, rfl⟩ := Option.map_eq_some_iff.mp hprofile
    exact vext e rfl
  · have hpadding : b.padding = (padding : Int) := by rw [hfields]
    have hhead : StandsAt d 0 b.head ∧ b.head.length = d.length - padding := by
      rw [length_head, head, hb0, hb1, hfields]
      simp only [standsAt_append, Fmt.length_wire, Fmt.size_B, Fmt.size_H, Fmt.size_I,
        length_flatten_words, Nat.zero_add, Nat.reduceAdd, hcount]
      simp only [fixedHeaderSize] at scsrc sext eoffset
      rw [← eoffset]
      exact ⟨⟨s0, s1, s2, s3, s4, scsrc, sext, hpayload⟩, by omega⟩
    rw [hpadding]
    exact exists_filler hhead.1 hhead.2 (by omega) hlast

/-- A parsed packet is rebuilt, up to the filler, by the builder configured from its fields. -/
theorem rebuild_of_parse {d : Bytes} {p : RtpPacket} (h : parseRtp d = .ok p) :
    ∃ image, (ofPacket p).build = .ok image ∧ AgreesOutsideFiller d image p.paddingSize := by
  obtain ⟨hv, hparts⟩ := parse_strict_parts h
  refine ⟨_, build_eq_ok.mpr ⟨hv, rfl⟩, ?_⟩
  rw [show p.paddingSize = (ofPacket p).padding by rw [ofPacket_eq]]
  exact (agreesOutsideFiller_wire hv).mpr hparts

/-- The strict parser accepts exactly the builder's images, up to the filler. -/
theorem parseRtp_accepts_images (d : Bytes) :
    ((∃ p, parseRtp d = .ok p) ↔ ∃ (b : RtpBuilder) (image : Bytes), b.version = 2 ∧
      b.build = .ok image ∧ AgreesOutsideFiller d image b.padding) ∧
    ∀ p, parseRtp d = .ok p → ∃ image, (ofPacket p).build = .ok image ∧
      AgreesOutsideFiller d image p.paddingSize := by
  refine ⟨⟨?_, ?_⟩, fun p hp => rebuild_of_parse hp⟩
  · rintro ⟨p, hp⟩
    obtain ⟨image, hbuild, hsame⟩ := rebuild_of_parse hp
    exact ⟨ofPacket p, image, by rw [ofPacket_eq], hbuild, by rwa [ofPacket_eq]⟩
  · rintro ⟨b, image, h2, hbuild, hsame⟩
    obtain ⟨hv, rfl⟩ := build_eq_ok.mp hbuild
    obtain ⟨filler, hlen, hd⟩ := (agreesOutsideFiller_wire hv).mp hsame
    exact ⟨b.packet d, (parse_of_parts hv true hd hlen).trans (if_pos (.inl h2))⟩

end RtpBuilder

end Rtpkit

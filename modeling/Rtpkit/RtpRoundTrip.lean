import Rtpkit.RtpWire

namespace Rtpkit

open Outcome Chunk

namespace RtpBuilder

/-- The packet a configuration describes, over the given raw bytes. -/
def packet (b : RtpBuilder) (raw : Bytes) : RtpPacket where
  version := b.version
  padding := 0 < b.padding
  extension := b.extProfile.isSome
  marker := b.marker
  payloadType := b.payloadType
  sequenceNumber := b.seq
  timestamp := b.timestamp
  ssrc := b.ssrc
  csrc := b.csrc
  headerExtension := b.extProfile.map fun profile =>
    { profile := profile, length := (b.extData.length / 4 : Nat), data := b.extData }
  payload := b.payload
  paddingSize := b.padding
  raw := raw

theorem decide_toNat_ne_zero (flag : Bool) : decide (flag.toNat ≠ 0) = flag := by
  cases flag with
  | false => rfl
  | true => rfl

theorem readExtension_of_standsAt {b : RtpBuilder} (hv : b.Valid) (strict : Bool) {d : Bytes}
    {offset : Nat} (h : StandsAt d offset (extensionWire b.extData b.extProfile)) :
    readExtension strict b.extProfile.isSome d offset = .ok (b.extProfile.map fun profile =>
      { profile := profile, length := (b.extData.length / 4 : Nat), data := b.extData },
      offset + (extensionWire b.extData b.extProfile).length) := by
  cases hp : b.extProfile with
  | none =>
    simp [readExtension, extensionWire]
    rfl
  | some profile =>
    obtain ⟨hrange, haligned, hwords⟩ := hv.extension profile hp
    have hle := h.le_length
    simp only [hp, extensionWire, standsAt_append, List.length_append, Fmt.length_wire, Fmt.size_H,
      Nat.add_assoc, Nat.reduceAdd] at h hle
    obtain ⟨hprofile, hlength, hdata⟩ := h
    obtain ⟨p, rp, ep⟩ := unpackFrom_of_standsAt (Fmt.fits_H.mpr hrange) hprofile
    obtain ⟨w, rw, ew⟩ := unpackFrom_of_standsAt (Fmt.fits_H.mpr (by omega)) hlength
    have hw : w = b.extData.length / 4 := Int.ofNat.inj ew
    have hbytes : b.extData.length / 4 * 4 = b.extData.length := by omega
    have hslice := hdata.slice_eq
    simp only [readExtension, Option.isSome_some, if_true]
    rw [if_neg (by omega), rp, bind_ok, rw, bind_ok, hw, hbytes,
      if_neg (show ¬d.length < offset + 4 + b.extData.length by omega), hslice, ep]
    simp only [Option.map_some, extensionWire, List.length_append, Fmt.length_wire, Fmt.size_H]
    congr 2
    omega

theorem length_tail {padding : Int} {filler : Bytes} (h : filler.length = (padding - 1).toNat) :
    (tail padding filler).length = padding.toNat := by
  unfold tail
  split
  next => simp only [List.length_append, h, Fmt.length_wire, Fmt.size_B]; omega
  next => simp only [List.length_nil]; omega

theorem readRtpPadding_of_tail {b : RtpBuilder} (hv : b.Valid) (strict : Bool) {d filler : Bytes}
    (hd : d = b.head ++ tail b.padding filler) (hf : filler.length = (b.padding - 1).toNat)
    (offset : Nat) (hoff : offset ≤ b.head.length) :
    readRtpPadding strict (0 < b.padding) d offset = .ok b.padding.toNat := by
  have hrange := hv.padding
  by_cases hp : 0 < b.padding
  · have htail : tail b.padding filler = filler ++ Fmt.wire .B b.padding := if_pos hp
    have hlen : d.length = b.head.length + b.padding.toNat := by
      rw [hd, List.length_append, length_tail hf]
    have hlast : StandsAt d (d.length - 1) (Fmt.wire .B b.padding) := by
      refine ⟨b.head ++ filler, [], by simp [hd, htail], ?_⟩
      simp only [List.length_append, hf]
      omega
    obtain ⟨n, rn, en⟩ := getByte_of_standsAt (Fmt.fits_B.mpr hrange) hlast
    have hn : n = b.padding.toNat := by omega
    simp only [readRtpPadding, hp, decide_true, if_true]
    rw [if_neg (by omega), rn, bind_ok, hn, if_neg (by omega), if_neg (by omega)]
    rfl
  · have hzero : b.padding.toNat = 0 := by omega
    simp only [readRtpPadding, hp, decide_false, hzero]
    rfl

theorem length_head (b : RtpBuilder) : b.head.length =
    12 + b.csrc.length * 4 + (extensionWire b.extData b.extProfile).length + b.payload.length := by
  simp only [head, List.length_append, Fmt.length_wire, Fmt.size_B, Fmt.size_H, Fmt.size_I,
    length_flatten_words]
  omega

/-- The parser reads a configuration back from its image, whatever the filler bytes are. -/
theorem parse_of_parts {b : RtpBuilder} (hv : b.Valid) (strict : Bool) {d filler : Bytes}
    (hd : d = b.head ++ tail b.padding filler) (hf : filler.length = (b.padding - 1).toNat) :
    parse strict d =
      if b.version = 2 ∨ strict = false then .ok (b.packet d)
      else .error (.rtpInvalidVersion b.version.toNat) := by
  have hbits := hv.headerBits
  have hb0 := hbits.byte0_lt
  have hb1 := hbits.byte1_lt
  have hrange := hv.padding
  have hlen := b.length_head
  have hhead : StandsAt d 0 b.head := ⟨[], tail b.padding filler, by simp [hd], rfl⟩
  have hle := hhead.le_length
  simp only [head, standsAt_append, Fmt.length_wire, Fmt.size_B, Fmt.size_H, Fmt.size_I,
    length_flatten_words, Nat.zero_add, Nat.reduceAdd] at hhead
  obtain ⟨h0, h1, hseq, hts, hssrc, hcsrc, hext, hpayload⟩ := hhead
  obtain ⟨first, r0, e0⟩ := getByte_of_standsAt (Fmt.fits_B.mpr (by omega)) h0
  obtain ⟨second, r1, e1⟩ := getByte_of_standsAt (Fmt.fits_B.mpr (by omega)) h1
  obtain ⟨seq, r2, e2⟩ := unpackFrom_of_standsAt (Fmt.fits_H.mpr hv.seq) hseq
  obtain ⟨ts, r3, e3⟩ := unpackFrom_of_standsAt (Fmt.fits_I.mpr hv.timestamp) hts
  obtain ⟨ssrc, r4, e4⟩ := unpackFrom_of_standsAt (Fmt.fits_I.mpr hv.ssrc) hssrc
  cases Int.ofNat.inj e0
  cases Int.ofNat.inj e1
  have rcount : readCsrcCount strict d.length b.csrc.length = .ok b.csrc.length := by
    rw [readCsrcCount, if_neg (by simp only [fixedHeaderSize]; omega)]
    rfl
  have rcsrc : unpackMany b.csrc.length d fixedHeaderSize = .ok b.csrc :=
    unpackMany_of_standsAt (fun c hc => Fmt.fits_I.mpr (hv.csrc c hc)) hcsrc
  have rext := readExtension_of_standsAt hv strict hext
  have rpad := readRtpPadding_of_tail hv strict hd hf
    (12 + b.csrc.length * 4 + (extensionWire b.extData b.extProfile).length) (by omega)
  have hdlen : d.length = b.head.length + b.padding.toNat := by
    rw [hd, List.length_append, length_tail hf]
  have hpay : slice d (12 + b.csrc.length * 4 + (extensionWire b.extData b.extProfile).length)
      (d.length - b.padding.toNat) = b.payload := by
    have hslice := hpayload.slice_eq
    rwa [show d.length - b.padding.toNat = 12 + b.csrc.length * 4 +
      (extensionWire b.extData b.extProfile).length + b.payload.length by omega]
  have hversion : ((b.byte0 >>> 6) &&& 0x03 : Nat) = b.version.toNat := by
    have := hbits.version
    omega
  simp only [parse]
  rw [require_pos (by simp only [fixedHeaderSize]; omega), bind_ok, r0, bind_ok, r1, bind_ok, r2,
    bind_ok, r3, bind_ok, r4, bind_ok, hversion]
  split
  next hok =>
    rw [require_pos (hok.imp_left fun h => by omega), bind_ok, hbits.csrcCount, rcount, bind_ok, rcsrc, bind_ok,
      hbits.extension, decide_toNat_ne_zero, hbits.padding, decide_toNat_ne_zero, hbits.marker,
      decide_toNat_ne_zero]
    simp only [fixedHeaderSize, rext, bind_ok, rpad, hpay, e2, e3, e4, hbits.payloadType]
    have hv0 : ((b.version.toNat : Nat) : Int) = b.version := Int.toNat_of_nonneg hv.version.1
    have hp0 : ((b.padding.toNat : Nat) : Int) = b.padding := Int.toNat_of_nonneg hrange.1
    rw [hv0, hp0]
    rfl
  next hbad =>
    rw [require_neg (mt (Or.imp_left fun h => by omega) hbad), bind_error]

theorem parse_wire {b : RtpBuilder} (hv : b.Valid) (strict : Bool) :
    parse strict b.wire =
      if b.version = 2 ∨ strict = false then .ok (b.packet b.wire)
      else .error (.rtpInvalidVersion b.version.toNat) :=
  parse_of_parts hv strict rfl (by simp)

/-- `build` returns on exactly the valid configurations, raises only its own error otherwise,
and what it returns is parsed back to the configuration. -/
theorem build_parse_roundTrip (b : RtpBuilder) :
    ((∃ d, b.build = .ok d) ∨ ∃ field detail, b.build = .error (.rtpBuildError field detail)) ∧
    ((∃ d, b.build = .ok d) ↔ b.Valid) ∧
    ∀ d, b.build = .ok d →
      (b.version = 2 → parseRtp d = .ok (b.packet d)) ∧
      (b.version ≠ 2 → parseRtp d = .error (.rtpInvalidVersion b.version.toNat) ∧
        parseRtpLenient d = .ok (b.packet d)) := by
  refine ⟨?_, ?_, ?_⟩
  · cases hb : b.build with
    | ok d => exact .inl ⟨d, rfl⟩
    | error e =>
      obtain ⟨field, detail, rfl⟩ := build_failsOnly b e hb
      exact .inr ⟨field, detail, rfl⟩
  · constructor
    · rintro ⟨d, hd⟩
      exact (build_eq_ok.mp hd).1
    · exact fun hv => ⟨_, build_eq_ok.mpr ⟨hv, rfl⟩⟩
  · intro d hd
    obtain ⟨hv, rfl⟩ := build_eq_ok.mp hd
    constructor
    · intro h2
      exact (parse_wire hv true).trans (if_pos (.inl h2))
    · intro h2
      exact ⟨(parse_wire hv true).trans (if_neg (by simp [h2])),
        (parse_wire hv false).trans (if_pos (.inr rfl))⟩

end RtpBuilder

end Rtpkit

import Rtpkit.ExtensionImage
import Rtpkit.RtpRoundTrip

namespace Rtpkit

open Outcome Chunk ExtensionProfile Alignment

/-- Encoded elements, each behind some bytes of padding. -/
def spacedWire (profile : ExtensionProfile) (pieces : List (Nat × ExtensionElement)) : Bytes :=
  (pieces.map fun piece => zeros piece.1 ++ profile.elementWire piece.2).flatten

section Parse

variable {profile : ExtensionProfile} (hknown : profile ≠ .unknown)

include hknown

/-- The elements are read wherever they stand among padding, and then what follows them. -/
theorem parse_spacedWire {pieces : List (Nat × ExtensionElement)}
    (hlegal : ∀ piece ∈ pieces, profile.Legal piece.2) (length : Int) (rest : Bytes) :
    parseExtensionElements
        { profile := profile.value, length := length, data := spacedWire profile pieces ++ rest } =
      .ok (pieces.map Prod.snd ++ (profile.format.framing.run false () rest).items) := by
  rw [parseExtensionElements_eq, classifyProfile_value hknown]
  dsimp only
  rw [spacedWire, CellFormat.run_spaced (fun piece _ => isPadding_zeros hknown piece.1)
    (fun piece hpiece => carries_elementWire (hlegal piece hpiece)), Yielded.items_prepend]

theorem run_zeros (n : Nat) (rest : Bytes) :
    profile.format.framing.run false () (zeros n ++ rest) =
      profile.format.framing.run false () rest :=
  CellFormat.run_padding (isPadding_zeros hknown n) rest

theorem run_only_zeros (n : Nat) :
    profile.format.framing.run false () (zeros n) = ⟨[], none⟩ := by
  have h := run_zeros hknown n []
  rwa [List.append_nil, Framing.run_nil] at h

theorem parse_image {elements : List ExtensionElement}
    (hlegal : ∀ elem ∈ elements, profile.Legal elem) :
    parseExtensionElements (profile.image elements) = .ok elements := by
  have hpieces : ∀ piece ∈ elements.map fun elem => ((0, elem) : Nat × ExtensionElement),
      profile.Legal piece.2 := by
    intro piece hpiece
    obtain ⟨elem, helem, rfl⟩ := List.mem_map.mp hpiece
    exact hlegal elem helem
  have hparse := parse_spacedWire hknown hpieces ((profile.body elements).length / 4 : Nat)
    (zeros (fill 4 (profile.elementsWire elements).length))
  have hwire : spacedWire profile (elements.map fun elem => (0, elem)) =
      profile.elementsWire elements := by
    rw [spacedWire, List.map_map]
    rfl
  rw [run_only_zeros hknown, hwire, List.map_map, List.append_nil] at hparse
  exact hparse.trans (congrArg Except.ok (List.map_id elements))

end Parse

/-- A byte of the reserved ID ends the elements of a one-byte extension. -/
theorem run_reserved {stop : UInt8} (h : stop.toNat >>> 4 = 15) (tail : Bytes) :
    oneByteFormat.framing.run false () (stop :: tail) = ⟨[], none⟩ := by
  have hno : oneByteFormat.isPadding stop = false := by
    refine decide_eq_false fun hzero => ?_
    rw [hzero] at h
    cases h
  have hcut : oneByteFormat.head (stop :: tail) = .cut () :=
    CellFormat.head_stop hno (if_pos (by rw [h]; rfl))
  rw [Framing.run_cut (by simp) hcut]
  rfl

namespace RtpBuilder

theorem valid_default : ({} : RtpBuilder).Valid where
  version := by decide
  payloadType := by decide
  seq := by decide
  timestamp := by decide
  ssrc := by decide
  csrcCount := by decide
  csrc := by simp
  extension := by simp
  padding := by decide

theorem Valid.withExtension {b : RtpBuilder} (h : b.Valid) {profile : Int} {data : Bytes}
    (hext : ExtensionValid data profile) : (b.withExtension profile data).Valid where
  version := h.version
  payloadType := h.payloadType
  seq := h.seq
  timestamp := h.timestamp
  ssrc := h.ssrc
  csrcCount := h.csrcCount
  csrc := h.csrc
  extension := by
    intro value hvalue
    cases hvalue
    exact hext
  padding := h.padding

theorem extensionValid_body (profile : ExtensionProfile) {elements : List ExtensionElement}
    (hwords : (profile.image elements).length ≤ 65535) :
    ExtensionValid (profile.body elements) profile.value where
  profile := by
    cases profile with
    | unknown => decide
    | oneByte => decide
    | twoByte => decide
  aligned := profile.length_body_mod elements
  words := Int.ofNat_le.mp hwords

theorem exists_buildPacket_withExtension {b : RtpBuilder} (h : b.Valid) (hversion : b.version = 2)
    {profile : ExtensionProfile} {elements : List ExtensionElement}
    (hwords : (profile.image elements).length ≤ 65535) :
    ∃ packet, (b.withExtension profile.value (profile.body elements)).buildPacket = .ok packet ∧
      packet.headerExtension = some (profile.image elements) := by
  have hv := h.withExtension (extensionValid_body profile hwords)
  have hbuild : (b.withExtension profile.value (profile.body elements)).buildPacket =
      .ok ((b.withExtension profile.value (profile.body elements)).packet
        (b.withExtension profile.value (profile.body elements)).wire) := by
    rw [buildPacket, build_eq_ok.mpr ⟨hv, rfl⟩, bind_ok]
    exact (parse_wire hv true).trans (if_pos (.inl hversion))
  exact ⟨_, hbuild, rfl⟩

end RtpBuilder

/-- What is built from elements is read as them, in the extension itself, among padding, in front
of a reserved ID, and in a packet. -/
theorem parse_buildHeaderExtension {elements : List ExtensionElement} {profile : ExtensionProfile}
    {ext : HeaderExtension} (h : buildHeaderExtension elements profile = .ok ext) :
    parseExtensionElements ext = .ok elements ∧
    (ext.data.length : Int) = 4 * ext.length ∧
    ext.data = (elements.map profile.elementWire).flatten ++
      zeros (fill 4 (elements.map profile.elementWire).flatten.length) ∧
    (∀ (pieces : List (Nat × ExtensionElement)) (last : Nat) (length : Int),
      pieces.map Prod.snd = elements →
      parseExtensionElements ⟨ext.profile, length, spacedWire profile pieces ++ zeros last⟩ =
        .ok elements ∧
      (profile = .oneByte → ∀ (stop : UInt8) (tail : Bytes), stop.toNat >>> 4 = 15 →
        parseExtensionElements
          ⟨ext.profile, length, spacedWire profile pieces ++ (zeros last ++ stop :: tail)⟩ =
            .ok elements)) ∧
    (ext.length ≤ 65535 → ∃ b packet carried,
      ({} : RtpBuilder).withExtensionElements elements profile = .ok b ∧
        b.buildPacket = .ok packet ∧ packet.headerExtension = some carried ∧
          parseExtensionElements carried = .ok elements) := by
  obtain ⟨hknown, hlegal, rfl⟩ := buildHeaderExtension_eq_ok.mp h
  refine ⟨parse_image hknown hlegal, ?_, rfl, ?_, ?_⟩
  · have hmod := profile.length_body_mod elements
    simp only [image]
    omega
  · rintro pieces last length rfl
    have hpieces : ∀ piece ∈ pieces, profile.Legal piece.2 :=
      fun piece hpiece => hlegal piece.2 (List.mem_map_of_mem hpiece)
    refine ⟨?_, ?_⟩
    · have hparse := parse_spacedWire hknown hpieces length (zeros last)
      rwa [run_only_zeros hknown, List.append_nil] at hparse
    · rintro rfl stop tail hstop
      have hparse := parse_spacedWire hknown hpieces length (zeros last ++ stop :: tail)
      rwa [run_zeros hknown, ExtensionProfile.format, run_reserved hstop, List.append_nil] at hparse
  · intro hwords
    obtain ⟨packet, hbuild, hcarried⟩ := RtpBuilder.exists_buildPacket_withExtension
      RtpBuilder.valid_default rfl hwords
    refine ⟨_, packet, profile.image elements, ?_, hbuild, hcarried, parse_image hknown hlegal⟩
    rw [RtpBuilder.withExtensionElements, h]
    rfl

/-- Two elements among padding, in front of a reserved ID. -/
theorem parse_buildHeaderExtension_reserved :
    parseExtensionElements ⟨0xBEDE, 0, [0, 0x12, 7, 0, 9, 0, 0x20, 8, 0, 0, 0xF3, 1]⟩ =
      .ok [⟨1, [7, 0, 9]⟩, ⟨2, [8]⟩] := by
  have hbuild : buildHeaderExtension [⟨1, [7, 0, 9]⟩, ⟨2, [8]⟩] .oneByte =
      .ok ⟨0xBEDE, 2, [0x12, 7, 0, 9, 0x20, 8, 0, 0]⟩ := by
    decide +kernel
  obtain ⟨-, -, -, hspaced, -⟩ := parse_buildHeaderExtension hbuild
  exact (hspaced [(1, ⟨1, [7, 0, 9]⟩), (1, ⟨2, [8]⟩)] 2 0 rfl).2 rfl 0xF3 [1] rfl

end Rtpkit

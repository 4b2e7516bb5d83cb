import Rtpkit.LenientRefines
import Rtpkit.RtpAudit
import Rtpkit.RtpImage

namespace Rtpkit

open Outcome Chunk

/-- The data with the first byte that the builder gives to a packet. -/
def mend (data : Bytes) (packet : RtpPacket) : Bytes :=
  data.set 0 (UInt8.ofNat (RtpBuilder.ofPacket packet).byte0)

/-- The packet with its flags set as its fields say. -/
def RtpPacket.mended (packet : RtpPacket) (raw : Bytes) : RtpPacket :=
  { packet with
    version := 2
    padding := 0 < packet.paddingSize
    extension := packet.headerExtension.isSome
    raw := raw }

/-- The second data has a first byte of its own, with the bits of what lenient mode makes of the
first. -/
structure IsMend (data d : Bytes) : Prop where
  length_eq : d.length = data.length
  byteAt_eq : ∀ i, 0 < i → byteAt d i = byteAt data i
  slice_eq : ∀ i j, 0 < i → slice d i j = slice data i j
  version_eq : (byteAt d 0 >>> 6) &&& 0x03 = 2
  paddingFlag_iff : PaddingFlag d ↔ 0 < lenientPadding data
  extensionFlag_iff : ExtensionFlag d ↔ HasExtension data
  declaredCsrc_eq : declaredCsrc d = keptCsrc data

section Mended

variable {data : Bytes}

theorem keptCsrc_le : keptCsrc data ≤ 15 :=
  (Nat.min_le_left _ _).trans Nat.and_le_right

/-- The bits that the builder writes for what lenient mode has read. -/
theorem byte0_lenientPacket : ∃ first < 256,
    (RtpBuilder.ofPacket (lenientPacket data)).byte0 = first ∧ (first >>> 6) &&& 0x03 = 2 ∧
      (first >>> 5) &&& 0x01 = (decide (0 < lenientPadding data)).toNat ∧
      (first >>> 4) &&& 0x01 = (decide (HasExtension data)).toNat ∧
      first &&& 0x0F = keptCsrc data := by
  have hkept : keptCsrc data ≤ 15 := keptCsrc_le
  have hcount : keptCsrc data &&& 0x0F = keptCsrc data := by
    rw [show 0x0F = 2 ^ 4 - 1 from rfl, Nat.and_two_pow_sub_one_eq_mod]
    omega
  have hext : (lenientPacket data).headerExtension.isSome = decide (HasExtension data) := by
    rw [Bool.eq_iff_iff, decide_eq_true_iff]
    exact isSome_lenientExtension
  have hbyte : (RtpBuilder.ofPacket (lenientPacket data)).byte0 =
      (2 <<< 6) ||| ((decide (0 < lenientPadding data)).toNat <<< 5) |||
        ((decide (HasExtension data)).toNat <<< 4) ||| keptCsrc data := by
    have hcc : (lenientPacket data).csrc.length = keptCsrc data := cc_lenientPacket data
    have hpadding : decide ((0 : Int) < (lenientPacket data).paddingSize) =
        decide (0 < lenientPadding data) := decide_eq_decide.mpr Int.natCast_pos
    rw [RtpBuilder.ofPacket_eq, RtpBuilder.byte0]
    dsimp only
    rw [Option.isSome_map, hcc, hcount, hext, hpadding]
    rfl
  obtain ⟨hlt, hbits⟩ := RtpBuilder.byte0_fields 2 (by omega) (decide (0 < lenientPadding data))
    (decide (HasExtension data)) (keptCsrc data) (by omega)
  exact ⟨_, hlt, hbyte, hbits⟩

theorem isMend_mend (hlen : 12 ≤ data.length) : IsMend data (mend data (lenientPacket data)) := by
  obtain ⟨first, hlt, hfirst, hversion, hpadding, hextension, hcount⟩ :=
    byte0_lenientPacket
  have hbyte : (UInt8.ofNat first).toNat = first := UInt8.toNat_ofNat_of_lt' hlt
  have hzero : byteAt (mend data (lenientPacket data)) 0 = first := by
    rw [mend, hfirst, byteAt, List.getD_eq_getElem?_getD, List.getElem?_set_self (by omega)]
    exact hbyte
  have hflag : ∀ flag : Bool, flag.toNat ≠ 0 ↔ flag = true := by decide
  refine ⟨List.length_set, fun i hi => ?_, fun i j hi => ?_, by rw [hzero, hversion], ?_, ?_, ?_⟩
  · rw [mend, byteAt, byteAt, List.getD_eq_getElem?_getD, List.getD_eq_getElem?_getD,
      List.getElem?_set_ne (by omega)]
  · rw [mend, slice, slice, List.take_set, List.drop_set_of_lt hi]
  · rw [PaddingFlag, hzero, hpadding, hflag, decide_eq_true_iff]
  · rw [ExtensionFlag, hzero, hextension, hflag, decide_eq_true_iff]
  · rw [declaredCsrc, hzero, hcount]

end Mended

namespace IsMend

variable {data d : Bytes}

theorem keptCsrc_eq (h : IsMend data d) : keptCsrc d = keptCsrc data := by
  have hfits : keptCsrc data ≤ (data.length - 12) / 4 := Nat.min_le_right _ _
  rw [keptCsrc, h.declaredCsrc_eq, h.length_eq, min_eq_left hfits]

theorem csrcEnd_eq (h : IsMend data d) : csrcEnd d = csrcEnd data := by
  rw [csrcEnd, csrcEnd, h.keptCsrc_eq]

theorem csrcEnd_pos : 0 < csrcEnd data := by
  rw [csrcEnd]
  omega

theorem payloadStart_pos : 0 < payloadStart data := by
  by_cases h : HasExtension data
  · rw [payloadStart_of_hasExtension h]
    omega
  · rw [payloadStart_of_not_hasExtension h]
    exact csrcEnd_pos

theorem extensionWords_eq (h : IsMend data d) : extensionWords d = extensionWords data := by
  rw [extensionWords, extensionWords, h.csrcEnd_eq, halfAt, halfAt, h.slice_eq _ _ (by omega)]

theorem hasExtension_iff (h : IsMend data d) : HasExtension d ↔ HasExtension data := by
  rw [HasExtension, h.extensionFlag_iff, h.length_eq, h.csrcEnd_eq, h.extensionWords_eq]
  exact and_iff_left_of_imp And.right

theorem lenientExtension_eq (h : IsMend data d) : lenientExtension d = lenientExtension data := by
  have hpos : 0 < csrcEnd data := csrcEnd_pos
  simp only [lenientExtension, h.hasExtension_iff, h.csrcEnd_eq, h.extensionWords_eq, halfAt,
    h.slice_eq _ _ hpos, h.slice_eq _ _ (Nat.add_pos_left hpos 4)]

theorem payloadStart_eq (h : IsMend data d) : payloadStart d = payloadStart data := by
  rw [payloadStart, payloadStart, h.lenientExtension_eq]

theorem lenientPadding_eq (h : IsMend data d) (hlen : 12 ≤ data.length) :
    lenientPadding d = lenientPadding data := by
  have hlast : byteAt d (data.length - 1) = byteAt data (data.length - 1) :=
    h.byteAt_eq _ (by omega)
  have hpadding : lenientPadding d =
      if PaddingFlag d ∧ byteAt d (d.length - 1) ≤ d.length - payloadStart d then
        byteAt d (d.length - 1)
      else 0 := rfl
  simp only [hpadding, h.paddingFlag_iff, h.length_eq, hlast, h.payloadStart_eq]
  by_cases hpos : 0 < lenientPadding data
  · have htaken : PaddingFlag data ∧
        byteAt data (data.length - 1) ≤ data.length - payloadStart data := by
      by_contra hnot
      rw [lenientPadding, if_neg hnot] at hpos
      exact absurd hpos (Nat.lt_irrefl 0)
    rw [if_pos ⟨hpos, htaken.2⟩, lenientPadding, if_pos htaken]
  · rw [if_neg fun hboth => hpos hboth.1]
    omega

theorem lenientPacket_eq (h : IsMend data d) (hlen : 12 ≤ data.length) :
    lenientPacket d = (lenientPacket data).mended d := by
  have hpadding : decide (PaddingFlag d) = decide ((0 : Int) < lenientPadding data) :=
    decide_eq_decide.mpr (h.paddingFlag_iff.trans Int.natCast_pos.symm)
  have hextension : decide (ExtensionFlag d) = (lenientExtension data).1.isSome := by
    rw [Bool.eq_iff_iff, decide_eq_true_iff, h.extensionFlag_iff]
    exact isSome_lenientExtension.symm
  have hhalf : ∀ i, 0 < i → halfAt d i = halfAt data i := fun i hi => by
    rw [halfAt, halfAt, h.slice_eq i _ hi]
  have hquad : ∀ i, 0 < i → quadAt d i = quadAt data i := fun i hi => by
    rw [quadAt, quadAt, h.slice_eq i _ hi]
  have hcsrc : ∀ i, quadAt d (12 + i * 4) = quadAt data (12 + i * 4) :=
    fun i => hquad _ (by omega)
  simp only [lenientPacket, RtpPacket.mended, h.version_eq, hpadding, hextension,
    h.byteAt_eq 1 (by omega), hhalf 2 (by omega), hquad 4 (by omega), hquad 8 (by omega),
    h.keptCsrc_eq, hcsrc, h.lenientExtension_eq, h.payloadStart_eq, h.lenientPadding_eq hlen,
    h.length_eq, h.slice_eq _ _ payloadStart_pos]
  rfl

/-- Nothing is left for lenient mode to mend. -/
theorem parseRtp_eq_ok (h : IsMend data d) (hlen : 12 ≤ data.length) :
    parseRtp d = .ok ((lenientPacket data).mended d) := by
  have hcount : keptCsrc d = declaredCsrc d := h.keptCsrc_eq.trans h.declaredCsrc_eq.symm
  have hextension : ExtensionFlag d → HasExtension d := fun hflag =>
    h.hasExtension_iff.mpr (h.extensionFlag_iff.mp hflag)
  have hpadding : PaddingFlag d → 0 < lenientPadding d := fun hflag =>
    (h.lenientPadding_eq hlen).symm ▸ h.paddingFlag_iff.mp hflag
  rw [parseRtp_eq (h.length_eq.symm ▸ hlen), audit_lenientPacket, require_pos h.version_eq, bind_ok,
    require_pos hcount, bind_ok, require_pos hextension, bind_ok, require_pos hpadding, bind_ok,
    h.lenientPacket_eq hlen]
  rfl

end IsMend

section Rebuild

variable {data : Bytes} {packet : RtpPacket}

theorem ofPacket_mended (packet : RtpPacket) (raw : Bytes) :
    RtpBuilder.ofPacket (packet.mended raw) = RtpBuilder.ofPacket packet := by
  rw [RtpBuilder.ofPacket_eq, RtpBuilder.ofPacket_eq]
  rfl

/-- A packet that strict mode accepts begins with the byte that the builder gives it. -/
theorem mend_eq_self (h : parseRtp data = .ok packet) : mend data packet = data := by
  obtain ⟨-, filler, -, hparts⟩ := RtpBuilder.parse_strict_parts h
  have hbyte : ∀ n : Nat, Fmt.wire .B n = [UInt8.ofNat n] := by
    intro n
    simp [Fmt.wire, BigEndian.encode]
  rw [RtpBuilder.head, hbyte] at hparts
  rw [mend, hparts]
  rfl

end Rebuild

/-- What lenient mode makes of a packet is, version and flags apart, what strict mode makes of it once
its first byte is the one that the builder writes; strict mode accepts the packet itself exactly when that byte is there
already, and it accepts what the builder builds from the fields, which differs in the filler. -/
theorem lenient_mends {data : Bytes} {packet : RtpPacket} (h : parseRtpLenient data = .ok packet) :
    parseRtp (mend data packet) = .ok (packet.mended (mend data packet)) ∧
    ((∃ found, parseRtp data = .ok found) ↔ mend data packet = data) ∧
    ∃ image, (RtpBuilder.ofPacket packet).build = .ok image ∧
      RtpBuilder.AgreesOutsideFiller (mend data packet) image packet.paddingSize ∧
      parseRtp image = .ok (packet.mended image) := by
  have hlen : 12 ≤ data.length := by
    by_contra hshort
    rw [parseRtpLenient_short (by omega)] at h
    cases h
  have hpacket : packet = lenientPacket data := by
    rw [parseRtpLenient_eq hlen] at h
    exact (Except.ok.inj h).symm
  have hmend : IsMend data (mend data packet) := by
    rw [hpacket]
    exact isMend_mend hlen
  have hstrict : parseRtp (mend data packet) = .ok (packet.mended (mend data packet)) := by
    rw [hmend.parseRtp_eq_ok hlen, ← hpacket]
  refine ⟨hstrict, ⟨?_, fun hsame => ⟨_, hsame ▸ hstrict⟩⟩, ?_⟩
  · rintro ⟨found, hfound⟩
    have hsame : found = packet := Except.ok.inj ((parse_lenient hfound).symm.trans h)
    rw [← hsame]
    exact mend_eq_self hfound
  · obtain ⟨image, hbuild, hagrees⟩ := RtpBuilder.rebuild_of_parse hstrict
    rw [ofPacket_mended] at hbuild
    refine ⟨image, hbuild, hagrees, ?_⟩
    obtain ⟨hvalid, filler, hfiller, hparts⟩ := RtpBuilder.parse_strict_parts hstrict
    rw [ofPacket_mended] at hvalid hfiller hparts
    obtain ⟨-, rfl⟩ := RtpBuilder.build_eq_ok.mp hbuild
    have hversion : (RtpBuilder.ofPacket packet).version = 2 := by rw [RtpBuilder.ofPacket_eq]
    have hfields : (RtpBuilder.ofPacket packet).packet (mend data packet) =
        packet.mended (mend data packet) := by
      have hparse := (RtpBuilder.parse_of_parts hvalid true hparts hfiller).trans
        (if_pos (.inl hversion))
      exact Except.ok.inj (hparse.symm.trans hstrict)
    have hparse := (RtpBuilder.parse_wire hvalid true).trans (if_pos (.inl hversion))
    have hraw := congrArg (fun found : RtpPacket =>
      { found with raw := (RtpBuilder.ofPacket packet).wire }) hfields
    exact hparse.trans (congrArg Except.ok hraw)

/-- Version 1, three sources announced of which one is there, an extension that is not, and padding
that is longer than the packet. -/
def tornPacket : Bytes := [0x73, 0x60, 0, 1, 0, 0, 0, 2, 0, 0, 0, 3, 0, 0, 0, 4, 9]

theorem lenient_mends_tornPacket : ∃ packet, parseRtpLenient tornPacket = .ok packet ∧
    mend tornPacket packet = 0x81 :: tornPacket.tail ∧
    parseRtp (0x81 :: tornPacket.tail) = .ok (packet.mended (0x81 :: tornPacket.tail)) := by
  have hlenient : parseRtpLenient tornPacket = .ok (lenientPacket tornPacket) :=
    parseRtpLenient_eq (by decide)
  have hmend : mend tornPacket (lenientPacket tornPacket) = 0x81 :: tornPacket.tail := by
    decide +kernel
  have hstrict := (lenient_mends hlenient).1
  rw [hmend] at hstrict
  exact ⟨_, hlenient, hmend, hstrict⟩

end Rtpkit

import Rtpkit.RtpLenient

namespace Rtpkit

open Outcome Chunk

section Audit

variable (data : Bytes)

/-- What strict mode says of a header extension that is announced and not there. -/
def extensionObjection : Error :=
  if data.length < csrcEnd data + 4 then .rtpExtensionError
    s!"Need {csrcEnd data + 4} bytes for extension header, got {data.length}"
  else .rtpExtensionError
    s!"Extension declares {extensionWords data * 4} bytes of data, but only {data.length - (csrcEnd data + 4)} available"

/-- What strict mode says of padding that is announced and not there. -/
def paddingObjection : Error :=
  if data.length - payloadStart data < 1 then .rtpPaddingError 0 (data.length - payloadStart data)
  else .rtpPaddingError (byteAt data (data.length - 1)) (data.length - payloadStart data)

/-- The checks that a packet of lenient mode was spared, in the order that strict mode makes
them. -/
def audit (packet : RtpPacket) : Except Error RtpPacket := do
  require (packet.version = 2) (.rtpInvalidVersion ((byteAt data 0 >>> 6) &&& 0x03))
  require (packet.cc = declaredCsrc data)
    (.rtpBufferTooShort (12 + declaredCsrc data * 4) data.length)
  require (packet.extension = true → packet.headerExtension.isSome) (extensionObjection data)
  require (packet.padding = true → 0 < packet.paddingSize) (paddingObjection data)
  pure packet

end Audit

section Strict

variable {data : Bytes}

theorem require_congr {p q : Prop} [Decidable p] [Decidable q] (h : p ↔ q) (failure : Error) :
    require p failure = require q failure := by
  unfold require
  simp only [h]

/-- The declared CSRC entries are all kept exactly when they fit. -/
theorem readCsrcCount_strict_eq (hlen : 12 ≤ data.length) :
    readCsrcCount true data.length (byteAt data 0 &&& 0x0F) =
      (require (keptCsrc data = declaredCsrc data)
        (.rtpBufferTooShort (12 + declaredCsrc data * 4) data.length) >>= fun _ =>
          .ok (keptCsrc data)) := by
  unfold readCsrcCount fixedHeaderSize
  dsimp only
  split
  next hover =>
    have hcut : keptCsrc data ≠ declaredCsrc data := by
      unfold keptCsrc declaredCsrc
      omega
    rw [if_pos rfl, require_neg hcut]
    rfl
  next hroom =>
    have hkept : keptCsrc data = declaredCsrc data := by
      unfold keptCsrc declaredCsrc
      omega
    rw [require_pos hkept, hkept]
    rfl

theorem isSome_lenientExtension :
    (lenientExtension data).1.isSome = true ↔ HasExtension data := by
  unfold lenientExtension
  split
  next h => simp [h]
  next h => simp [h]

theorem readExtension_strict_eq :
    readExtension true (decide (ExtensionFlag data)) data (csrcEnd data) =
      (require (ExtensionFlag data → HasExtension data) (extensionObjection data) >>= fun _ =>
        .ok (lenientExtension data)) := by
  by_cases hflag : ExtensionFlag data
  case neg =>
    rw [require_pos fun h => absurd h hflag, bind_ok, lenientExtension, if_neg fun h => hflag h.1,
      readExtension, if_neg (by simpa using hflag)]
    rfl
  unfold readExtension extensionObjection
  dsimp only
  rw [if_pos (by simpa using hflag)]
  by_cases hhead : csrcEnd data + 4 ≤ data.length
  case neg =>
    rw [if_pos (by omega), if_pos rfl, if_pos (by omega), require_neg fun h => hhead (h hflag).2.1]
    rfl
  rw [if_neg (by omega), unpackFrom_halfAt (by omega), bind_ok, unpackFrom_halfAt (by omega),
    bind_ok]
  change (if data.length < csrcEnd data + 4 + extensionWords data * 4 then _ else _) = _
  by_cases hbody : csrcEnd data + 4 + extensionWords data * 4 ≤ data.length
  case neg =>
    rw [if_pos (by omega), if_pos rfl, if_neg (by omega), require_neg fun h => hbody (h hflag).2.2]
    rfl
  have hall : HasExtension data := ⟨hflag, hhead, hbody⟩
  rw [if_neg (by omega), require_pos fun _ => hall, bind_ok, lenientExtension, if_pos hall]
  rfl

theorem readRtpPadding_strict_eq (hlen : 12 ≤ data.length) :
    readRtpPadding true (decide (PaddingFlag data)) data (payloadStart data) =
      (require (PaddingFlag data → 0 < lenientPadding data) (paddingObjection data) >>= fun _ =>
        .ok (lenientPadding data)) := by
  by_cases hflag : PaddingFlag data
  case neg =>
    rw [require_pos fun h => absurd h hflag, bind_ok, lenientPadding, if_neg fun h => hflag h.1,
      readRtpPadding, if_neg (by simpa using hflag)]
    rfl
  unfold readRtpPadding paddingObjection
  dsimp only
  rw [if_pos (by simpa using hflag)]
  have hle : lenientPadding data ≤ data.length - payloadStart data := lenientPadding_le
  by_cases hroom : data.length - payloadStart data < 1
  · rw [if_pos hroom, if_pos rfl, if_pos hroom, require_neg fun h => by have := h hflag; omega]
    rfl
  rw [if_neg hroom, if_neg hroom, getByte_byteAt (by omega), bind_ok]
  by_cases hover : byteAt data (data.length - 1) ≤ data.length - payloadStart data
  · have hpadding : lenientPadding data = byteAt data (data.length - 1) := if_pos ⟨hflag, hover⟩
    rw [hpadding]
    by_cases hzero : byteAt data (data.length - 1) = 0
    · rw [if_pos hzero, if_pos rfl, hzero, require_neg fun h => absurd (h hflag) (Nat.lt_irrefl 0)]
      rfl
    · rw [if_neg hzero, if_neg (by omega), require_pos fun _ => Nat.pos_of_ne_zero hzero]
      rfl
  · have hpadding : lenientPadding data = 0 := if_neg fun h => hover h.2
    rw [if_neg (by omega), if_pos (by omega), if_pos rfl, hpadding,
      require_neg fun h => absurd (h hflag) (Nat.lt_irrefl 0)]
    rfl

theorem audit_lenientPacket : audit data (lenientPacket data) = (do
    require ((byteAt data 0 >>> 6) &&& 0x03 = 2) (.rtpInvalidVersion ((byteAt data 0 >>> 6) &&& 0x03))
    require (keptCsrc data = declaredCsrc data)
      (.rtpBufferTooShort (12 + declaredCsrc data * 4) data.length)
    require (ExtensionFlag data → HasExtension data) (extensionObjection data)
    require (PaddingFlag data → 0 < lenientPadding data) (paddingObjection data)
    pure (lenientPacket data)) := by
  have hversion : (lenientPacket data).version = 2 ↔ (byteAt data 0 >>> 6) &&& 0x03 = 2 :=
    Int.ofNat_inj
  have hextension : ((lenientPacket data).extension = true →
      (lenientPacket data).headerExtension.isSome = true) ↔ (ExtensionFlag data → HasExtension data) := by
    rw [← isSome_lenientExtension]
    exact imp_congr_left decide_eq_true_iff
  have hpadding : ((lenientPacket data).padding = true → 0 < (lenientPacket data).paddingSize) ↔
      (PaddingFlag data → 0 < lenientPadding data) :=
    imp_congr decide_eq_true_iff Int.natCast_pos
  rw [audit, require_congr hversion, cc_lenientPacket, require_congr hextension,
    require_congr hpadding]

theorem parseRtp_eq (hlen : 12 ≤ data.length) :
    parseRtp data = audit data (lenientPacket data) := by
  have hfixed : fixedHeaderSize ≤ data.length := hlen
  rw [parseRtp, parse, audit_lenientPacket]
  simp only [require_pos hfixed, bind_ok]
  rw [getByte_byteAt (by omega), bind_ok, getByte_byteAt (by omega), bind_ok,
    unpackFrom_halfAt (by omega), bind_ok, unpackFrom_quadAt (by omega), bind_ok,
    unpackFrom_quadAt (by omega), bind_ok, require_congr (or_iff_left (by decide))]
  refine congrArg (require _ _ >>= ·) (funext fun _ => ?_)
  rw [readCsrcCount_strict_eq hlen, bind_assoc]
  refine congrArg (require _ _ >>= ·) (funext fun _ => ?_)
  have hcsrc : fixedHeaderSize + keptCsrc data * 4 ≤ data.length := csrcEnd_le hlen
  rw [bind_ok, unpackMany_quadAt hcsrc, bind_ok]
  change (readExtension true (decide (ExtensionFlag data)) data (csrcEnd data) >>= _) = _
  rw [readExtension_strict_eq, bind_assoc]
  refine congrArg (require _ _ >>= ·) (funext fun _ => ?_)
  rw [bind_ok]
  change (readRtpPadding true (decide (PaddingFlag data)) data (payloadStart data) >>= _) = _
  rw [readRtpPadding_strict_eq hlen, bind_assoc]
  rfl

end Strict

/-- Strict parsing is lenient parsing with an audit of the packet afterwards: it accepts what
lenient mode had nothing to mend in, and otherwise raises what the first mend was made for. -/
theorem parseRtp_eq_audit (data : Bytes) :
    parseRtp data = (parseRtpLenient data >>= audit data) := by
  rcases Nat.lt_or_ge data.length 12 with hshort | hlen
  · have hfixed : ¬fixedHeaderSize ≤ data.length := by
      simp only [fixedHeaderSize]
      omega
    rw [parseRtpLenient_short hshort, parseRtp, parse, require_neg hfixed]
    rfl
  · rw [parseRtpLenient_eq hlen, bind_ok, parseRtp_eq hlen]

end Rtpkit

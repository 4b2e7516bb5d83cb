import Rtpkit.RtpTotal

namespace Rtpkit

open Outcome Chunk

section Layout

variable (data : Bytes)

def declaredCsrc : Nat := byteAt data 0 &&& 0x0F

def PaddingFlag : Prop := (byteAt data 0 >>> 5) &&& 0x01 ≠ 0

def ExtensionFlag : Prop := (byteAt data 0 >>> 4) &&& 0x01 ≠ 0

/-- The declared CSRC entries that fit. -/
def keptCsrc : Nat := min (declaredCsrc data) ((data.length - 12) / 4)

def csrcEnd : Nat := 12 + keptCsrc data * 4

def extensionWords : Nat := halfAt data (csrcEnd data + 2)

/-- The header extension is announced, and all of it is there. -/
def HasExtension : Prop :=
  ExtensionFlag data ∧ csrcEnd data + 4 ≤ data.length ∧
    csrcEnd data + 4 + extensionWords data * 4 ≤ data.length

instance : Decidable (PaddingFlag data) := inferInstanceAs (Decidable (_ ≠ _))

instance : Decidable (ExtensionFlag data) := inferInstanceAs (Decidable (_ ≠ _))

instance : Decidable (HasExtension data) := inferInstanceAs (Decidable (_ ∧ _))

def lenientExtension : Option HeaderExtension × Nat :=
  if HasExtension data then
    (some {
      profile := halfAt data (csrcEnd data)
      length := extensionWords data
      data := slice data (csrcEnd data + 4) (csrcEnd data + 4 + extensionWords data * 4) },
      csrcEnd data + 4 + extensionWords data * 4)
  else (none, csrcEnd data)

def payloadStart : Nat := (lenientExtension data).2

def lenientPadding : Nat :=
  if PaddingFlag data ∧ byteAt data (data.length - 1) ≤ data.length - payloadStart data then
    byteAt data (data.length - 1)
  else 0

/-- What lenient mode makes of at least 12 bytes. -/
def lenientPacket : RtpPacket where
  version := ((byteAt data 0 >>> 6) &&& 0x03 : Nat)
  padding := decide (PaddingFlag data)
  extension := decide (ExtensionFlag data)
  marker := decide ((byteAt data 1 >>> 7) &&& 0x01 ≠ 0)
  payloadType := (byteAt data 1 &&& 0x7F : Nat)
  sequenceNumber := halfAt data 2
  timestamp := quadAt data 4
  ssrc := quadAt data 8
  csrc := (List.range (keptCsrc data)).map fun i => (quadAt data (12 + i * 4) : Int)
  headerExtension := (lenientExtension data).1
  payload := slice data (payloadStart data) (data.length - lenientPadding data)
  paddingSize := lenientPadding data
  raw := data

end Layout

section Recovery

variable {data : Bytes}

theorem readCsrcCount_lenient_eq (hlen : 12 ≤ data.length) :
    readCsrcCount false data.length (byteAt data 0 &&& 0x0F) = .ok (keptCsrc data) := by
  unfold readCsrcCount keptCsrc declaredCsrc fixedHeaderSize
  dsimp only
  split
  next hover =>
    rw [if_neg Bool.false_ne_true, Nat.min_eq_right (by omega)]
    rfl
  next hroom =>
    rw [Nat.min_eq_left (by omega)]
    rfl

theorem csrcEnd_le (hlen : 12 ≤ data.length) : csrcEnd data ≤ data.length := by
  unfold csrcEnd keptCsrc
  omega

theorem readExtension_lenient_eq :
    readExtension false (decide (ExtensionFlag data)) data (csrcEnd data) =
      .ok (lenientExtension data) := by
  unfold readExtension lenientExtension
  dsimp only
  by_cases hflag : ExtensionFlag data
  case neg =>
    rw [if_neg (by simpa using hflag), if_neg fun h => hflag h.1]
    rfl
  rw [if_pos (by simpa using hflag)]
  by_cases hhead : csrcEnd data + 4 ≤ data.length
  case neg =>
    rw [if_pos (by omega), if_neg Bool.false_ne_true, if_neg fun h => hhead h.2.1]
    rfl
  rw [if_neg (by omega), unpackFrom_halfAt (by omega), bind_ok, unpackFrom_halfAt (by omega),
    bind_ok]
  change (if data.length < csrcEnd data + 4 + extensionWords data * 4 then _ else _) = _
  by_cases hbody : csrcEnd data + 4 + extensionWords data * 4 ≤ data.length
  case neg =>
    rw [if_pos (by omega), if_neg Bool.false_ne_true, if_neg fun h => hbody h.2.2]
    rfl
  rw [if_neg (by omega), if_pos ⟨hflag, hhead, hbody⟩]
  rfl

theorem payloadStart_of_hasExtension (h : HasExtension data) :
    payloadStart data = csrcEnd data + 4 + extensionWords data * 4 := by
  rw [payloadStart, lenientExtension, if_pos h]

theorem payloadStart_of_not_hasExtension (h : ¬HasExtension data) :
    payloadStart data = csrcEnd data := by
  rw [payloadStart, lenientExtension, if_neg h]

theorem payloadStart_le (hlen : 12 ≤ data.length) : payloadStart data ≤ data.length := by
  by_cases h : HasExtension data
  · rw [payloadStart_of_hasExtension h]
    exact h.2.2
  · rw [payloadStart_of_not_hasExtension h]
    exact csrcEnd_le hlen

theorem readRtpPadding_lenient_eq (hlen : 12 ≤ data.length) :
    readRtpPadding false (decide (PaddingFlag data)) data (payloadStart data) =
      .ok (lenientPadding data) := by
  unfold readRtpPadding lenientPadding
  dsimp only
  by_cases hflag : PaddingFlag data
  case neg =>
    rw [if_neg (by simpa using hflag), if_neg fun h => hflag h.1]
    rfl
  rw [if_pos (by simpa using hflag)]
  by_cases hroom : data.length - payloadStart data < 1
  · rw [if_pos hroom, if_neg Bool.false_ne_true]
    split
    next h =>
      have hzero : byteAt data (data.length - 1) = 0 := by omega
      rw [hzero]
      rfl
    next => rfl
  rw [if_neg hroom, getByte_byteAt (by omega), bind_ok]
  by_cases hzero : byteAt data (data.length - 1) = 0
  · rw [if_pos hzero, if_neg Bool.false_ne_true, hzero, if_pos ⟨hflag, Nat.zero_le _⟩]
    rfl
  rw [if_neg hzero]
  by_cases hover : data.length - payloadStart data < byteAt data (data.length - 1)
  · rw [if_pos hover, if_neg Bool.false_ne_true, if_neg fun h => absurd h.2 (by omega)]
    rfl
  · rw [if_neg hover, if_pos ⟨hflag, by omega⟩]
    rfl

theorem lenientPadding_le : lenientPadding data ≤ data.length - payloadStart data := by
  unfold lenientPadding
  split
  next h => exact h.2
  next => exact Nat.zero_le _

theorem parseRtpLenient_short (h : data.length < 12) :
    parseRtpLenient data = .error (.rtpBufferTooShort 12 data.length) := by
  have hshort : ¬fixedHeaderSize ≤ data.length := by
    simp only [fixedHeaderSize]
    omega
  rw [parseRtpLenient, parse, require_neg hshort]
  rfl

theorem parseRtpLenient_eq (hlen : 12 ≤ data.length) :
    parseRtpLenient data = .ok (lenientPacket data) := by
  have hfixed : fixedHeaderSize ≤ data.length := hlen
  rw [parseRtpLenient, parse]
  simp only [require_pos hfixed, bind_ok]
  rw [getByte_byteAt (by omega), bind_ok, getByte_byteAt (by omega), bind_ok,
    unpackFrom_halfAt (by omega), bind_ok, unpackFrom_quadAt (by omega), bind_ok,
    unpackFrom_quadAt (by omega), bind_ok, require_pos (.inr trivial), bind_ok,
    readCsrcCount_lenient_eq hlen, bind_ok]
  have hcsrc : fixedHeaderSize + keptCsrc data * 4 ≤ data.length := csrcEnd_le hlen
  rw [unpackMany_quadAt hcsrc, bind_ok]
  change (readExtension false (decide (ExtensionFlag data)) data (csrcEnd data) >>= _) = _
  rw [readExtension_lenient_eq, bind_ok]
  change (readRtpPadding false (decide (PaddingFlag data)) data (payloadStart data) >>= _) = _
  rw [readRtpPadding_lenient_eq hlen, bind_ok]
  rfl

end Recovery

/-- Every byte of the data is in the header, in the payload or in the padding. -/
structure RtpPacket.Accounts (packet : RtpPacket) (data : Bytes) (header padding : Nat) : Prop where
  headerSize : packet.headerSize = header
  paddingSize : packet.paddingSize = padding
  totalSize : packet.totalSize = data.length
  total : header + packet.payload.length + padding = packet.totalSize
  payload : packet.payload = slice data header (data.length - padding)
  csrcCount : packet.cc ≤ declaredCsrc data
  csrcFits : ∀ c ∈ packet.csrc, Fmt.Fits .I c
  csrc : StandsAt data 12 (packet.csrc.map (Fmt.wire .I)).flatten
  extension : ∀ ext, packet.headerExtension = some ext → ∃ words : Nat, ext.length = words ∧
    ext.data.length = 4 * words ∧ 12 + 4 * packet.cc + 4 + 4 * words = header ∧
    ext.data = slice data (header - 4 * words) header

section Accounting

variable {data : Bytes}

theorem cc_lenientPacket (data : Bytes) : (lenientPacket data).cc = keptCsrc data := by
  simp [RtpPacket.cc, lenientPacket]

theorem headerSize_lenientPacket (data : Bytes) :
    (lenientPacket data).headerSize = payloadStart data := by
  have hcc : (lenientPacket data).csrc.length = keptCsrc data := cc_lenientPacket data
  by_cases h : HasExtension data
  · have hext : (lenientPacket data).headerExtension = some
        ⟨halfAt data (csrcEnd data), extensionWords data,
          slice data (csrcEnd data + 4) (csrcEnd data + 4 + extensionWords data * 4)⟩ := by
      rw [lenientPacket, lenientExtension, if_pos h]
    rw [RtpPacket.headerSize, hext, payloadStart_of_hasExtension h]
    simp only [hcc, csrcEnd]
    omega
  · have hext : (lenientPacket data).headerExtension = none := by
      rw [lenientPacket, lenientExtension, if_neg h]
    rw [RtpPacket.headerSize, hext, payloadStart_of_not_hasExtension h]
    simp only [hcc, csrcEnd]
    omega

theorem lenientExtension_accounts {ext : HeaderExtension}
    (h : (lenientPacket data).headerExtension = some ext) : ∃ words : Nat, ext.length = words ∧
      ext.data.length = 4 * words ∧
      12 + 4 * (lenientPacket data).cc + 4 + 4 * words = payloadStart data ∧
      ext.data = slice data (payloadStart data - 4 * words) (payloadStart data) := by
  rw [lenientPacket, lenientExtension] at h
  split at h
  next hhas =>
    have hstart := payloadStart_of_hasExtension hhas
    have hroom := hhas.2.2
    cases h
    refine ⟨extensionWords data, rfl, ?_, ?_, ?_⟩
    · dsimp only
      rw [length_slice_add hroom, Nat.mul_comm]
    · rw [cc_lenientPacket, hstart, csrcEnd]
      omega
    · dsimp only
      rw [hstart, show csrcEnd data + 4 + extensionWords data * 4 - 4 * extensionWords data =
        csrcEnd data + 4 by omega]
  next => cases h

theorem lenientPacket_accounts (hlen : 12 ≤ data.length) :
    (lenientPacket data).Accounts data (payloadStart data) (lenientPadding data) := by
  have hread := unpackMany_quadAt (csrcEnd_le hlen)
  obtain ⟨-, hfits, hstands⟩ := unpackMany_spec hread (by omega)
  have hstart := payloadStart_le hlen
  have hpadding : lenientPadding data ≤ data.length - payloadStart data := lenientPadding_le
  have hpayload : (lenientPacket data).payload.length =
      data.length - lenientPadding data - payloadStart data := by
    rw [lenientPacket, length_slice]
    omega
  exact {
    headerSize := headerSize_lenientPacket data
    paddingSize := rfl
    totalSize := rfl
    total := by
      have htotal : (lenientPacket data).totalSize = data.length := rfl
      rw [hpayload, htotal]
      omega
    payload := rfl
    csrcCount := by
      rw [cc_lenientPacket, keptCsrc]
      exact Nat.min_le_left _ _
    csrcFits := hfits
    csrc := hstands
    extension := fun _ => lenientExtension_accounts }

/-- Lenient parsing raises exactly on less than a fixed header, and else accounts for every byte. -/
theorem parseRtpLenient_accounts (data : Bytes) :
    (∀ e, parseRtpLenient data = .error e ↔
      data.length < 12 ∧ e = .rtpBufferTooShort 12 data.length) ∧
    (∀ packet, parseRtpLenient data = .ok packet →
      ∃ header padding, packet.Accounts data header padding) := by
  by_cases hlen : 12 ≤ data.length
  · rw [parseRtpLenient_eq hlen]
    refine ⟨fun e => ⟨fun h => ?_, fun h => absurd h.1 (by omega)⟩, fun packet h => ?_⟩
    · cases h
    · cases h
      exact ⟨_, _, lenientPacket_accounts hlen⟩
  · rw [parseRtpLenient_short (by omega)]
    refine ⟨fun e => ⟨fun h => ⟨by omega, (Except.error.inj h).symm⟩, fun h => ?_⟩,
      fun packet h => ?_⟩
    · rw [h.2]
    · cases h

end Accounting

end Rtpkit

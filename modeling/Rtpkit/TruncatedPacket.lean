import Rtpkit.LenientRefines
import Rtpkit.RtpLenient

namespace Rtpkit

open Outcome Chunk

/-- The packet is what is left of another one whose end is missing. -/
structure RtpPacket.Truncates (cut packet : RtpPacket) : Prop where
  marker : cut.marker = packet.marker
  payloadType : cut.payloadType = packet.payloadType
  sequenceNumber : cut.sequenceNumber = packet.sequenceNumber
  timestamp : cut.timestamp = packet.timestamp
  ssrc : cut.ssrc = packet.ssrc
  csrc : cut.csrc <+: packet.csrc
  payload : cut.payload <+: packet.payload

/-- Where the header ends by its CSRC count and the length of its extension. -/
def headerEnd (data : Bytes) : Nat :=
  if ExtensionFlag data then
    12 + declaredCsrc data * 4 + 4 + halfAt data (12 + declaredCsrc data * 4 + 2) * 4
  else 12 + declaredCsrc data * 4

/-- Where the CSRC entries end that are whole in the first `k` bytes. -/
def wholeEntriesEnd (data : Bytes) (k : Nat) : Nat :=
  12 + min (declaredCsrc data) ((k - 12) / 4) * 4

section Cut

variable {data : Bytes} {k : Nat}

theorem byteAt_take {i : Nat} (h : i < k) : byteAt (data.take k) i = byteAt data i := by
  rw [byteAt, byteAt, List.getD_eq_getElem?_getD, List.getD_eq_getElem?_getD,
    List.getElem?_take_of_lt h]

theorem halfAt_take {i : Nat} (h : i + 2 ≤ k) : halfAt (data.take k) i = halfAt data i := by
  rw [halfAt, halfAt, slice_take data i h]

theorem quadAt_take {i : Nat} (h : i + 4 ≤ k) : quadAt (data.take k) i = quadAt data i := by
  rw [quadAt, quadAt, slice_take data i h]

theorem declaredCsrc_take (hk : 12 ≤ k) : declaredCsrc (data.take k) = declaredCsrc data := by
  rw [declaredCsrc, declaredCsrc, byteAt_take (by omega)]

theorem extensionFlag_take (hk : 12 ≤ k) : ExtensionFlag (data.take k) ↔ ExtensionFlag data := by
  rw [ExtensionFlag, ExtensionFlag, byteAt_take (by omega)]

theorem paddingFlag_take (hk : 12 ≤ k) : PaddingFlag (data.take k) ↔ PaddingFlag data := by
  rw [PaddingFlag, PaddingFlag, byteAt_take (by omega)]

theorem csrcEnd_take (hk : 12 ≤ k) (hle : k ≤ data.length) :
    csrcEnd (data.take k) = wholeEntriesEnd data k := by
  rw [csrcEnd, keptCsrc, wholeEntriesEnd, declaredCsrc_take hk, List.length_take_of_le hle]

theorem lenientPadding_of_not_flag (h : ¬PaddingFlag data) : lenientPadding data = 0 :=
  if_neg fun hpad => h hpad.1

theorem readExtension_strict_room {flag : Bool} {off : Nat}
    {result : Option HeaderExtension × Nat} (h : readExtension true flag data off = .ok result)
    (hflag : flag = true) :
    off + 4 ≤ data.length ∧ off + 4 + halfAt data (off + 2) * 4 ≤ data.length := by
  unfold readExtension at h
  dsimp only at h
  rw [if_pos hflag] at h
  split at h
  next => cases h
  next hhead =>
    rw [unpackFrom_halfAt (by omega), bind_ok, unpackFrom_halfAt (by omega), bind_ok] at h
    split at h
    next => cases h
    next hbody => exact ⟨by omega, by omega⟩

/-- In a packet that strict mode accepts, the header is complete. -/
theorem headerEnd_of_parseRtp {packet : RtpPacket} (h : parseRtp data = .ok packet) :
    keptCsrc data = declaredCsrc data ∧ payloadStart data = headerEnd data := by
  simp only [parseRtp, parse, bind_eq_ok, require_eq_ok, exists_const] at h
  obtain ⟨hlen, first, hfirst, -, -, -, -, -, -, -, -, -, cc, hcc, -, -, ext, hext, -, -, -⟩ := h
  have hlen12 : 12 ≤ data.length := hlen
  rw [getByte_byteAt (by omega)] at hfirst
  cases hfirst
  obtain ⟨rfl, hroom⟩ := readCsrcCount_strict hcc
  have hroom12 : 12 + declaredCsrc data * 4 ≤ data.length := hroom
  have hkept : keptCsrc data = declaredCsrc data := Nat.min_eq_left (by omega)
  have hend : csrcEnd data = 12 + declaredCsrc data * 4 := by rw [csrcEnd, hkept]
  refine ⟨hkept, ?_⟩
  rw [headerEnd, ← hend]
  by_cases hflag : ExtensionFlag data
  · have hextension := readExtension_strict_room hext (decide_eq_true hflag)
    rw [if_pos hflag, payloadStart_of_hasExtension ⟨hflag, ?_⟩]
    · rfl
    · rw [extensionWords, hend]
      exact hextension
  · rw [if_neg hflag, payloadStart_of_not_hasExtension fun hhas => hflag hhas.1]

theorem wholeEntriesEnd_of_le (h : 12 + declaredCsrc data * 4 ≤ k) :
    wholeEntriesEnd data k = 12 + declaredCsrc data * 4 := by
  rw [wholeEntriesEnd, Nat.min_eq_left (by omega)]

/-- A cut behind the header leaves the payload where it begins. -/
theorem payloadStart_take_of_le (hle : k ≤ data.length) (h : headerEnd data ≤ k) :
    payloadStart (data.take k) = headerEnd data := by
  have hlen : (data.take k).length = k := List.length_take_of_le hle
  rw [headerEnd] at h ⊢
  by_cases hflag : ExtensionFlag data
  · rw [if_pos hflag] at h ⊢
    have hend : csrcEnd (data.take k) = 12 + declaredCsrc data * 4 := by
      rw [csrcEnd_take (by omega) hle, wholeEntriesEnd_of_le (by omega)]
    have hwords : extensionWords (data.take k) = halfAt data (12 + declaredCsrc data * 4 + 2) := by
      rw [extensionWords, hend, halfAt_take (by omega)]
    have hhas : HasExtension (data.take k) := by
      refine ⟨(extensionFlag_take (by omega)).mpr hflag, ?_, ?_⟩
      · omega
      · omega
    rw [payloadStart_of_hasExtension hhas, hend, hwords]
  · rw [if_neg hflag] at h ⊢
    have hnot : ¬HasExtension (data.take k) := fun hhas =>
      hflag ((extensionFlag_take (by omega)).mp hhas.1)
    rw [payloadStart_of_not_hasExtension hnot, csrcEnd_take (by omega) hle,
      wholeEntriesEnd_of_le h]

/-- A cut in the header leaves the payload to begin behind the last whole CSRC entry. -/
theorem payloadStart_take_of_lt (hk : 12 ≤ k) (hle : k ≤ data.length) (h : k < headerEnd data) :
    payloadStart (data.take k) = wholeEntriesEnd data k := by
  have hlen : (data.take k).length = k := List.length_take_of_le hle
  have hend := csrcEnd_take hk hle
  have hnot : ¬HasExtension (data.take k) := by
    rintro ⟨hflag, hhead, hbody⟩
    rw [hlen, hend] at hhead hbody
    have hwhole : wholeEntriesEnd data k = 12 + declaredCsrc data * 4 :=
      wholeEntriesEnd_of_le (by rw [wholeEntriesEnd] at hhead; omega)
    rw [extensionWords, hend, hwhole, halfAt_take (by omega)] at hbody
    rw [headerEnd, if_pos ((extensionFlag_take hk).mp hflag)] at h
    omega
  rw [payloadStart_of_not_hasExtension hnot, hend]

theorem keptCsrc_take (hk : 12 ≤ k) (hle : k ≤ data.length) :
    keptCsrc (data.take k) ≤ keptCsrc data ∧ 12 + keptCsrc (data.take k) * 4 ≤ k := by
  have hlen : (data.take k).length = k := List.length_take_of_le hle
  rw [keptCsrc, keptCsrc, declaredCsrc_take hk, hlen]
  omega

theorem csrc_take (hk : 12 ≤ k) (hle : k ≤ data.length) :
    (lenientPacket (data.take k)).csrc <+: (lenientPacket data).csrc := by
  obtain ⟨hfewer, hroom⟩ := keptCsrc_take hk hle
  have hcut : (lenientPacket (data.take k)).csrc =
      (List.range (keptCsrc (data.take k))).map fun i => (quadAt data (12 + i * 4) : Int) := by
    refine List.map_congr_left fun i hi => ?_
    have hlt := List.mem_range.mp hi
    rw [quadAt_take (by omega)]
  rw [hcut, ← Nat.min_eq_left hfewer, ← List.take_range]
  exact (List.take_prefix _ _).map _

/-- All but the payload of a cut packet is always right. -/
theorem truncates_take_iff (hk : 12 ≤ k) (hle : k ≤ data.length) (hpadding : ¬PaddingFlag data) :
    (lenientPacket (data.take k)).Truncates (lenientPacket data) ↔
      slice data (payloadStart (data.take k)) k <+: data.drop (payloadStart data) := by
  have hlen : (data.take k).length = k := List.length_take_of_le hle
  have hcut : (lenientPacket (data.take k)).payload =
      slice data (payloadStart (data.take k)) k := by
    have hnone := lenientPadding_of_not_flag fun h => hpadding ((paddingFlag_take hk).mp h)
    rw [lenientPacket, hnone, hlen, Nat.sub_zero, slice_take data _ (Nat.le_refl k)]
  have hwhole : (lenientPacket data).payload = data.drop (payloadStart data) := by
    rw [lenientPacket, lenientPadding_of_not_flag hpadding, Nat.sub_zero, slice, List.take_length]
  rw [← hcut, ← hwhole]
  refine ⟨fun h => h.payload, fun h => ?_⟩
  exact {
    marker := by simp only [lenientPacket, byteAt_take (show 1 < k by omega)]
    payloadType := by simp only [lenientPacket, byteAt_take (show 1 < k by omega)]
    sequenceNumber := by simp only [lenientPacket, halfAt_take (show 2 + 2 ≤ k by omega)]
    timestamp := by simp only [lenientPacket, quadAt_take (show 4 + 4 ≤ k by omega)]
    ssrc := by simp only [lenientPacket, quadAt_take (show 8 + 4 ≤ k by omega)]
    csrc := csrc_take hk hle
    payload := h }

end Cut

/-- What is left of a packet gives its fields and the front of its payload exactly when the
cut is behind the header, or the header's bytes from the last whole CSRC entry up to the cut
repeat the first bytes of the payload. -/
theorem truncates_iff {data : Bytes} {packet : RtpPacket} {k : Nat}
    (h : parseRtp data = .ok packet) (hpadding : packet.padding = false) (hk : 12 ≤ k)
    (hle : k ≤ data.length) :
    (∃ cut, parseRtpLenient (data.take k) = .ok cut ∧ cut.Truncates packet) ↔
      headerEnd data ≤ k ∨
        slice data (wholeEntriesEnd data k) k <+: data.drop (headerEnd data) := by
  have hlenient := parse_lenient h
  rw [← parseRtpLenient, parseRtpLenient_eq (by omega)] at hlenient
  cases hlenient
  have hflag : ¬PaddingFlag data := of_decide_eq_false hpadding
  have hstart := (headerEnd_of_parseRtp h).2
  have hcut : 12 ≤ (data.take k).length := by rwa [List.length_take_of_le hle]
  rw [parseRtpLenient_eq hcut]
  simp only [Except.ok.injEq, exists_eq_left', truncates_take_iff hk hle hflag, hstart]
  by_cases hbehind : headerEnd data ≤ k
  · rw [payloadStart_take_of_le hle hbehind]
    refine iff_of_true ?_ (.inl hbehind)
    rw [slice, List.drop_take]
    exact List.take_prefix _ _
  · rw [payloadStart_take_of_lt hk hle (by omega)]
    exact ⟨.inr, fun h => h.resolve_left hbehind⟩

/-- A packet with a header extension of one word, and one byte of payload. -/
def extended : Bytes :=
  [0x90, 0, 0, 1, 0, 0, 0, 2, 0, 0, 0, 3, 0xBE, 0xDE, 0, 1, 0xAA, 0xBB, 0xCC, 0xDD, 9]

theorem truncates_iff_extended :
    ∃ packet, parseRtp extended = .ok packet ∧ packet.padding = false ∧
      ∃ cut, parseRtpLenient (extended.take 20) = .ok cut ∧ cut.Truncates packet := by
  have hparse : parseRtp extended = .ok (lenientPacket extended) := rfl
  exact ⟨_, hparse, rfl,
    (truncates_iff hparse rfl (by decide) (by decide)).mpr (.inl (by decide))⟩

/-- The cut-off header extension becomes payload. -/
theorem extension_as_payload :
    ∃ packet cut, parseRtp extended = .ok packet ∧ packet.padding = false ∧
      packet.payload = [9] ∧ parseRtpLenient (extended.take 18) = .ok cut ∧
      cut.payload = [0xBE, 0xDE, 0, 1, 0xAA, 0xBB] ∧ ¬cut.Truncates packet := by
  refine ⟨lenientPacket extended, lenientPacket (extended.take 18), rfl, rfl, rfl, rfl, rfl,
    fun h => ?_⟩
  exact absurd h.payload (by decide)

end Rtpkit

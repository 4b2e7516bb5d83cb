import Rtpkit.FramingVisits
import Rtpkit.PcapngFields
import Rtpkit.WritersAgree

namespace Rtpkit

open Outcome Chunk Alignment

/-- What holds of every packet that a reader yields. -/
structure PcapPacket.Captured (pkt : PcapPacket) : Prop where
  capturedLength : pkt.capturedLength = pkt.data.length
  originalLength : Fmt.Fits .I pkt.originalLength
  linkType : 0 ≤ pkt.linkType
  timestamp : 0 ≤ pkt.timestamp

theorem captured_of_pcapHead {format : PcapFormat} {rest : Bytes} {size : Nat}
    {objection : Option Error} {pkt : PcapPacket}
    (h : pcapHead format rest = .unit size () objection (some pkt)) : pkt.Captured := by
  obtain ⟨hdr, -, hhdr, rfl, hle, -, hitem⟩ := pcapHead_eq_unit.mp h
  obtain rfl := Option.some.inj hitem
  obtain ⟨tsSec, -, hhdr⟩ := bind_eq_ok.mp hhdr
  obtain ⟨tsFrac, -, hhdr⟩ := bind_eq_ok.mp hhdr
  obtain ⟨inclLen, -, hhdr⟩ := bind_eq_ok.mp hhdr
  obtain ⟨origLen, horig, hhdr⟩ := bind_eq_ok.mp hhdr
  obtain rfl := pure_eq_ok.mp hhdr
  dsimp only at hle
  refine ⟨?_, unpackIn_fits horig, Int.natCast_nonneg _, ?_⟩
  · exact congrArg Nat.cast (length_slice_add hle).symm
  · exact add_nonneg (Nat.cast_nonneg _) (div_nonneg (Nat.cast_nonneg _) (Nat.cast_nonneg _))

theorem captured_of_parseEpb {body : Bytes} {order : ByteOrder} {interfaces : List Interface}
    {pkt : PcapPacket} (h : parseEpb body order interfaces = .ok pkt) : pkt.Captured := by
  obtain ⟨iface, hroom, -, rfl⟩ := parseEpb_eq_ok.mp h
  have horig : unpackIn order .I body 16 = .ok (wordAt order body 16) :=
    unpackIn_I_eq_ok.mpr ⟨by omega, rfl⟩
  refine ⟨?_, unpackIn_fits horig, Int.natCast_nonneg _, ?_⟩
  · exact congrArg Nat.cast (length_slice_add hroom).symm
  · exact div_nonneg (Nat.cast_nonneg _) (Nat.cast_nonneg _)

theorem captured_of_parseSpb {body : Bytes} {order : ByteOrder} {interfaces : List Interface}
    {pkt : PcapPacket} (h : parseSpb body order interfaces = .ok pkt) : pkt.Captured := by
  obtain ⟨_, hroom, h⟩ := bind_eq_ok.mp h
  have hroom := require_eq_ok.mp hroom
  obtain ⟨origLen, horig, h⟩ := bind_eq_ok.mp h
  obtain rfl := pure_eq_ok.mp h
  refine ⟨?_, unpackIn_fits horig, ?_, le_refl 0⟩
  · have hend : 4 + min origLen (body.length - 4) ≤ body.length := by omega
    exact congrArg Nat.cast (length_slice_add hend).symm
  · cases interfaces with
    | nil => exact le_refl 0
    | cons iface interfaces => exact Int.natCast_nonneg _

theorem captured_of_blockResult {hdr : BlockHeader} {body : Bytes} {after : PcapngState}
    {objection : Option Error} {pkt : PcapPacket}
    (h : blockResult hdr body = (after, objection, some pkt)) : pkt.Captured := by
  unfold blockResult at h
  cases hparse : parseBlock hdr body with
  | error e =>
    rw [hparse] at h
    cases h
  | ok result =>
    obtain ⟨found, packet⟩ := result
    rw [hparse] at h
    cases h
    unfold parseBlock at hparse
    split at hparse
    next =>
      obtain ⟨_, -, h⟩ := bind_eq_ok.mp hparse
      cases h
    split at hparse
    next =>
      obtain ⟨packet, hpacket, h⟩ := bind_eq_ok.mp hparse
      cases h
      exact captured_of_parseEpb hpacket
    split at hparse
    next =>
      obtain ⟨packet, hpacket, h⟩ := bind_eq_ok.mp hparse
      cases h
      exact captured_of_parseSpb hpacket
    next => cases hparse

/-- Whatever the format of a capture, its packets are within the ranges of the fields. -/
theorem captured_of_readCapture {data : Bytes} {pkt : PcapPacket}
    (h : pkt ∈ (readCapture data).items) : pkt.Captured := by
  unfold readCapture at h
  split at h
  next =>
    by_cases hlen : minBlockSize ≤ data.length
    · rw [readPcapng, readPcapngMode_eq_run true hlen] at h
      refine Framing.forall_run_items (fun s rest size after objection a hhead => ?_) _ _ _ pkt h
      obtain ⟨hdr, -, -, -, -, -, hresult⟩ := pcapngHead_eq_unit.mp hhead
      exact captured_of_blockResult hresult
    · rw [readPcapng, readPcapngMode, if_pos (by omega)] at h
      cases h
  next =>
    cases hhdr : readGlobalHeader data with
    | error e =>
      rw [readPcap, readPcapMode_error true hhdr] at h
      cases h
    | ok format =>
      rw [readPcap, readPcapMode_eq_run true hhdr] at h
      refine Framing.forall_run_items (fun s rest size after objection a hhead => ?_) _ _ _ pkt h
      cases after
      exact captured_of_pcapHead hhead

/-- The numbers of a packet that the blocks of a file have room for. -/
def PcapPacket.HasRoom (pkt : PcapPacket) : Prop :=
  pkt.linkType < 2 ^ 16 ∧ 32 + (pkt.data.length + fill 4 pkt.data.length) < 2 ^ 32

theorem PcapPacket.Captured.writable_iff {pkt : PcapPacket} (h : pkt.Captured) :
    pkt.Writable ↔ pkt.HasRoom := by
  have hlink := h.linkType
  constructor
  · intro hwritable
    have hfits := Fmt.fits_H.mp hwritable.linkType
    exact ⟨by omega, hwritable.block⟩
  · rintro ⟨hlow, hblock⟩
    exact ⟨⟨h.originalLength, hblock⟩, Fmt.fits_H.mpr (by omega)⟩

/-- The second packet is the first one again, whatever the time. -/
structure SameRecord (pkt again : PcapPacket) : Prop where
  linkType : again.linkType = pkt.linkType
  originalLength : again.originalLength = pkt.originalLength
  data : again.data = pkt.data
  capturedLength : again.capturedLength = pkt.capturedLength

theorem PcapPacket.Captured.sameRecord_requantised {pkt : PcapPacket} (h : pkt.Captured) :
    SameRecord pkt pkt.requantised := ⟨rfl, rfl, rfl, h.capturedLength.symm⟩

/-- Rewriting a capture fails over what the blocks have no room for, and otherwise keeps every
packet, and its time where the counter of microseconds has room for it. -/
theorem writePcapng_readCapture (data : Bytes) (packets : List PcapPacket)
    (h : readCapture data = ⟨packets, none⟩) :
    ((∃ detail, writePcapng packets = .error (.structError detail)) ↔
      ∃ pkt ∈ packets, ¬pkt.HasRoom) ∧
    ((∀ pkt ∈ packets, pkt.HasRoom) →
      ∃ b again, writePcapng packets = .ok b ∧ readCapture b = ⟨again, none⟩ ∧
        List.Forall₂ (fun pkt copy => SameRecord pkt copy ∧
          (pkt.tick < 2 ^ 64 → |copy.timestamp - pkt.timestamp| ≤ 1 / 2000000)) packets again) := by
  have hcaptured : ∀ pkt ∈ packets, pkt.Captured := by
    intro pkt hpkt
    have hitem : pkt ∈ (readCapture data).items := by rwa [h]
    exact captured_of_readCapture hitem
  have hroom : (∀ pkt ∈ packets, pkt.Writable) ↔ ∀ pkt ∈ packets, pkt.HasRoom :=
    forall₂_congr fun pkt hpkt => (hcaptured pkt hpkt).writable_iff
  constructor
  · rw [writePcapng_raises_iff, hroom]
    simp only [not_forall, exists_prop]
  · intro hall
    have hwritable := hroom.mpr hall
    refine ⟨_, _, writePcapng_of_writable hwritable, readCapture_pcapngImage hwritable, ?_⟩
    rw [List.forall₂_map_right_iff, List.forall₂_same]
    intro pkt hpkt
    have hpacket := hcaptured pkt hpkt
    refine ⟨hpacket.sameRecord_requantised, fun htick => ?_⟩
    exact ((keepsPacket_requantised_iff hpacket.timestamp).mpr htick).timestamp

/-- A record of a big-endian file with nanoseconds, half of the way between two microseconds. -/
theorem writePcapng_readCapture_nanoseconds :
    ∃ b again, writePcapng [⟨1 + 1500 / 1000000000, 2, 9, 101, [7, 8]⟩] = .ok b ∧
      readCapture b = ⟨again, none⟩ ∧
      List.Forall₂ (fun pkt copy => SameRecord pkt copy ∧
        (pkt.tick < 2 ^ 64 → |copy.timestamp - pkt.timestamp| ≤ 1 / 2000000))
        [⟨1 + 1500 / 1000000000, 2, 9, 101, [7, 8]⟩] again := by
  have hread : readCapture [0xa1, 0xb2, 0x3c, 0x4d, 0, 2, 0, 4, 0, 0, 0, 0, 0, 0, 0, 0, 0, 0, 255, 255,
      0, 0, 0, 101, 0, 0, 0, 1, 0, 0, 5, 220, 0, 0, 0, 2, 0, 0, 0, 9, 7, 8] =
      ⟨[⟨1 + 1500 / 1000000000, 2, 9, 101, [7, 8]⟩], none⟩ := by decide +kernel
  apply (writePcapng_readCapture _ _ hread).2
  simp only [List.forall_mem_singleton]
  exact ⟨by decide, by decide⟩

/-- A classic file with a link type of 17 bits and one empty record. -/
def wideLinkTypeFile : Bytes :=
  [0xd4, 0xc3, 0xb2, 0xa1, 2, 0, 4, 0, 0, 0, 0, 0, 0, 0, 0, 0, 0, 0, 4, 0, 0, 0, 1, 0,
   0, 0, 0, 0, 0, 0, 0, 0, 0, 0, 0, 0, 0, 0, 0, 0]

/-- A file of blocks whose interface counts whole seconds, with one empty packet at `2 ^ 48`. -/
def lateFile : Bytes :=
  [0x0a, 0x0d, 0x0d, 0x0a, 28, 0, 0, 0, 0x4d, 0x3c, 0x2b, 0x1a, 1, 0, 0, 0,
   255, 255, 255, 255, 255, 255, 255, 255, 28, 0, 0, 0,
   1, 0, 0, 0, 28, 0, 0, 0, 1, 0, 0, 0, 0, 0, 4, 0, 9, 0, 1, 0, 0, 0, 0, 0, 28, 0, 0, 0,
   6, 0, 0, 0, 32, 0, 0, 0, 0, 0, 0, 0, 0, 0, 1, 0, 0, 0, 0, 0, 0, 0, 0, 0, 0, 0, 0, 0,
   32, 0, 0, 0]

theorem writePcapng_readCapture_wide :
    (readCapture wideLinkTypeFile = ⟨[⟨0, 0, 0, 65536, []⟩], none⟩ ∧
      ∀ b, writePcapng [⟨0, 0, 0, 65536, []⟩] ≠ .ok b) ∧
    (readCapture lateFile = ⟨[⟨2 ^ 48, 0, 0, 1, []⟩], none⟩ ∧
      ∃ b again, writePcapng [⟨2 ^ 48, 0, 0, 1, []⟩] = .ok b ∧ readCapture b = ⟨again, none⟩ ∧
        ¬List.Forall₂ KeepsPacket [⟨2 ^ 48, 0, 0, 1, []⟩] again) := by
  refine ⟨⟨by decide +kernel, ?_⟩, by decide +kernel,
    pcapngImage [⟨2 ^ 48, 0, 0, 1, []⟩],
    [⟨(2 ^ 48 * 1000000 % 2 ^ 64 : ℤ) / 1000000, 0, 0, 1, []⟩], by decide +kernel,
    by decide +kernel, ?_⟩
  · intro b hb
    have hlink := ((writePcapng_eq_ok.mp hb).1 _ (List.mem_singleton_self _)).linkType
    exact absurd hlink (by decide)
  · rintro (_ | ⟨h, _⟩)
    exact absurd h.timestamp (by decide +kernel)

end Rtpkit

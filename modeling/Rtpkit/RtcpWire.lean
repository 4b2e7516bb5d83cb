import Rtpkit.RtcpBuilder

namespace Rtpkit

open Outcome Alignment

def ReportBlock.wire (rb : ReportBlock) : Bytes :=
  Fmt.wire .I rb.ssrc ++ (Fmt.wire .I rb.flcl ++ (Fmt.wire .I rb.extendedHighestSequence ++
    (Fmt.wire .I rb.jitter ++ (Fmt.wire .I rb.lastSr ++ Fmt.wire .I rb.delaySinceLastSr))))

/-- The report blocks the builder accepts. -/
structure ReportBlock.Buildable (rb : ReportBlock) : Prop where
  ssrc : Fmt.Fits .I rb.ssrc
  fractionLost : 0 ≤ rb.fractionLost ∧ rb.fractionLost ≤ u8
  cumulativeLost : i24Min ≤ rb.cumulativeLost ∧ rb.cumulativeLost ≤ i24Max
  extendedHighestSequence : Fmt.Fits .I rb.extendedHighestSequence
  jitter : Fmt.Fits .I rb.jitter
  lastSr : Fmt.Fits .I rb.lastSr
  delaySinceLastSr : Fmt.Fits .I rb.delaySinceLastSr

theorem ReportBlock.flcl_eq (rb : ReportBlock) :
    rb.flcl = (rb.fractionLost % 0x100).toNat * 2 ^ 24 + (rb.cumulativeLost % 0x1000000).toNat := by
  have hlow : (rb.cumulativeLost % 0x1000000).toNat < 2 ^ 24 := by omega
  rw [ReportBlock.flcl, ← Nat.shiftLeft_add_eq_or_of_lt hlow, Nat.shiftLeft_eq]

theorem ReportBlock.flcl_fits (rb : ReportBlock) : Fmt.Fits .I rb.flcl := by
  rw [Fmt.fits_I, rb.flcl_eq]
  omega

@[simp] theorem ReportBlock.length_wire (rb : ReportBlock) : rb.wire.length = 24 := by
  simp [ReportBlock.wire]

theorem serializeReportBlock_eq_ok {rb : ReportBlock} {b : Bytes} :
    serializeReportBlock rb = .ok b ↔ rb.Buildable ∧ b = rb.wire := by
  simp only [serializeReportBlock, bind_eq_ok, require_eq_ok, structPack_eq_ok, pure_eq_ok,
    exists_const, List.forall_mem_cons, List.flatMap_cons, List.flatMap_nil, List.append_nil]
  constructor
  · rintro ⟨hfl, hcl, _, ⟨⟨hs, _, he, hj, hl, _⟩, rfl⟩, _, ⟨⟨hd, _⟩, rfl⟩, rfl⟩
    exact ⟨⟨hs, hfl, hcl, he, hj, hl, hd⟩, by simp [ReportBlock.wire]⟩
  · rintro ⟨h, rfl⟩
    exact ⟨h.fractionLost, h.cumulativeLost, _,
      ⟨⟨h.ssrc, rb.flcl_fits, h.extendedHighestSequence, h.jitter, h.lastSr, by simp⟩, rfl⟩, _,
      ⟨⟨h.delaySinceLastSr, by simp⟩, rfl⟩, by simp [ReportBlock.wire]⟩

def SenderInfo.wire (info : SenderInfo) : Bytes :=
  Fmt.wire .I info.ntpSeconds ++ (Fmt.wire .I info.ntpFraction ++ (Fmt.wire .I info.rtpTimestamp ++
    (Fmt.wire .I info.packetCount ++ Fmt.wire .I info.octetCount)))

structure SenderInfo.Buildable (info : SenderInfo) : Prop where
  ntpSeconds : Fmt.Fits .I info.ntpSeconds
  ntpFraction : Fmt.Fits .I info.ntpFraction
  rtpTimestamp : Fmt.Fits .I info.rtpTimestamp
  packetCount : Fmt.Fits .I info.packetCount
  octetCount : Fmt.Fits .I info.octetCount

@[simp] theorem SenderInfo.length_wire (info : SenderInfo) : info.wire.length = 20 := by
  simp [SenderInfo.wire]

def SdesItem.wire (item : SdesItem) : Bytes :=
  Fmt.wire .B item.type ++ (Fmt.wire .B item.text.length ++ item.text)

structure SdesItem.Buildable (item : SdesItem) : Prop where
  type : 1 ≤ item.type ∧ item.type ≤ u8
  text : (item.text.length : Int) ≤ u8

@[simp] theorem SdesItem.length_wire (item : SdesItem) :
    item.wire.length = item.text.length + 2 := by
  simp [SdesItem.wire]; omega

theorem SdesItem.Buildable.type_fits {item : SdesItem} (h : item.Buildable) :
    Fmt.Fits .B item.type := by
  have htype := h.type
  simp only [u8] at htype
  rw [Fmt.fits_B]
  omega

theorem SdesItem.Buildable.text_fits {item : SdesItem} (h : item.Buildable) :
    Fmt.Fits .B item.text.length := by
  have htext := h.text
  simp only [u8] at htext
  rw [Fmt.fits_B]
  omega

theorem serializeSdesItem_eq_ok {item : SdesItem} {b : Bytes} :
    serializeSdesItem item = .ok b ↔ item.Buildable ∧ b = item.wire := by
  simp only [serializeSdesItem, bind_eq_ok, require_eq_ok, structPack_eq_ok, pure_eq_ok,
    exists_const, List.forall_mem_cons, List.flatMap_cons, List.flatMap_nil, List.append_nil]
  constructor
  · rintro ⟨htype, htext, _, ⟨_, rfl⟩, rfl⟩
    exact ⟨⟨htype, htext⟩, by simp [SdesItem.wire]⟩
  · rintro ⟨h, rfl⟩
    exact ⟨h.type, h.text, _, ⟨⟨h.type_fits, h.text_fits, by simp⟩, rfl⟩, by simp [SdesItem.wire]⟩

/-- A chunk before its alignment: the source, the items and the null byte. -/
def SdesChunk.raw (chunk : SdesChunk) : Bytes :=
  Fmt.wire .I chunk.ssrc ++ ((chunk.items.map SdesItem.wire).flatten ++ [0])

theorem SdesChunk.length_raw (c : SdesChunk) :
    c.raw.length = 4 + (c.items.map SdesItem.wire).flatten.length + 1 := by
  simp only [SdesChunk.raw, List.length_append, Fmt.length_wire, Fmt.size_I,
    List.length_singleton]
  omega

def SdesChunk.wire (chunk : SdesChunk) : Bytes :=
  chunk.raw ++ zeros (fill 4 chunk.raw.length)

structure SdesChunk.Buildable (chunk : SdesChunk) : Prop where
  ssrc : Fmt.Fits .I chunk.ssrc
  items : ∀ item ∈ chunk.items, item.Buildable

/-- A chunk with any bytes in the place of its alignment. -/
structure SdesPart where
  chunk : SdesChunk
  padding : Bytes
  buildable : chunk.Buildable
  aligned : Fills 4 chunk.raw.length padding.length

def SdesPart.bytes (part : SdesPart) : Bytes := part.chunk.raw ++ part.padding

theorem SdesPart.length_bytes (part : SdesPart) : part.bytes.length = part.chunk.wire.length := by
  rw [bytes, SdesChunk.wire, List.length_append, List.length_append, part.aligned.eq_fill,
    length_zeros]

/-- The part that the builder writes for a chunk. -/
def SdesChunk.part (chunk : SdesChunk) (h : chunk.Buildable) : SdesPart where
  chunk := chunk
  padding := zeros (fill 4 chunk.raw.length)
  buildable := h
  aligned := by
    rw [length_zeros]
    exact fills_fill 4 _

theorem serializeSdesChunk_eq_ok {chunk : SdesChunk} {b : Bytes} :
    serializeSdesChunk chunk = .ok b ↔ chunk.Buildable ∧ b = chunk.wire := by
  simp only [serializeSdesChunk, bind_eq_ok, structPack_eq_ok, pure_eq_ok,
    mapM_eq_ok_of_spec fun x y => serializeSdesItem_eq_ok,
    List.forall_mem_cons, List.flatMap_cons, List.flatMap_nil, List.append_nil]
  constructor
  · rintro ⟨_, ⟨hi, rfl⟩, _, ⟨⟨hs, _⟩, rfl⟩, rfl⟩
    exact ⟨⟨hs, hi⟩, by simp [SdesChunk.wire, SdesChunk.raw, alignPad_eq]⟩
  · rintro ⟨h, rfl⟩
    exact ⟨_, ⟨h.items, rfl⟩, _, ⟨⟨h.ssrc, by simp⟩, rfl⟩, by simp [SdesChunk.wire, SdesChunk.raw, alignPad_eq]⟩

def reasonWire : Option Bytes → Bytes
  | none => []
  | some reason => Fmt.wire .B reason.length ++ reason

theorem serializeReason_eq_ok {reason : Option Bytes} {b : Bytes} :
    serializeReason reason = .ok b ↔
      (∀ r, reason = some r → (r.length : Int) ≤ u8) ∧ b = reasonWire reason := by
  cases reason with
  | none => simp [serializeReason, pure, Except.pure, reasonWire, eq_comm]
  | some r =>
    simp only [serializeReason, bind_eq_ok, require_eq_ok, structPack_eq_ok, pure_eq_ok,
      exists_const, List.forall_mem_cons, List.flatMap_cons, List.flatMap_nil, List.append_nil]
    constructor
    · rintro ⟨hr, _, ⟨_, rfl⟩, rfl⟩
      exact ⟨by simpa using hr, rfl⟩
    · rintro ⟨h, rfl⟩
      have hr := h r rfl
      refine ⟨hr, _, ⟨⟨?_, by simp⟩, rfl⟩, rfl⟩
      simp only [u8] at hr
      rw [Fmt.fits_B]
      omega

end Rtpkit

import Rtpkit.RtcpWire

namespace Rtpkit

open Outcome Alignment

/-- The five-bit field of the header: an entry count, or the subtype of an APP packet. -/
def RtcpPacket.count : RtcpPacket → Int
  | .senderReport pkt => pkt.reportBlocks.length
  | .receiverReport pkt => pkt.reportBlocks.length
  | .sourceDescription pkt => pkt.chunks.length
  | .goodbye pkt => pkt.sources.length
  | .applicationDefined pkt => pkt.subtype

def RtcpPacket.packetType : RtcpPacket → RtcpPacketType
  | .senderReport _ => .sr
  | .receiverReport _ => .rr
  | .sourceDescription _ => .sdes
  | .goodbye _ => .bye
  | .applicationDefined _ => .app

/-- The body of a packet before alignment and padding. -/
def RtcpPacket.body : RtcpPacket → Bytes
  | .senderReport pkt => Fmt.wire .I pkt.ssrc ++ (pkt.senderInfo.wire ++
      (pkt.reportBlocks.map ReportBlock.wire).flatten)
  | .receiverReport pkt => Fmt.wire .I pkt.ssrc ++ (pkt.reportBlocks.map ReportBlock.wire).flatten
  | .sourceDescription pkt => (pkt.chunks.map SdesChunk.wire).flatten
  | .goodbye pkt => (pkt.sources.map (Fmt.wire .I)).flatten ++ reasonWire pkt.reason
  | .applicationDefined pkt => Fmt.wire .I pkt.ssrc ++ ((encodeAscii pkt.name).getD [] ++ pkt.data)

def ReportBlocksBuildable (blocks : List ReportBlock) : Prop :=
  blocks.length ≤ maxCount ∧ ∀ rb ∈ blocks, rb.Buildable

/-- What `_serialize_*` checks of the packet's own fields. -/
def RtcpPacket.BodyBuildable : RtcpPacket → Prop
  | .senderReport pkt => Fmt.Fits .I pkt.ssrc ∧ pkt.senderInfo.Buildable ∧
      ReportBlocksBuildable pkt.reportBlocks
  | .receiverReport pkt => Fmt.Fits .I pkt.ssrc ∧ ReportBlocksBuildable pkt.reportBlocks
  | .sourceDescription pkt => pkt.chunks.length ≤ maxCount ∧ ∀ c ∈ pkt.chunks, c.Buildable
  | .goodbye pkt => pkt.sources.length ≤ maxCount ∧ (∀ s ∈ pkt.sources, Fmt.Fits .I s) ∧
      ∀ r, pkt.reason = some r → (r.length : Int) ≤ u8
  | .applicationDefined pkt => (0 ≤ pkt.subtype ∧ pkt.subtype ≤ maxCount) ∧
      (∃ name, encodeAscii pkt.name = some name ∧ name.length = 4) ∧ Fmt.Fits .I pkt.ssrc

/-- The bytes after the body: zeros up to a multiple of 4, then the padding with its count. -/
def trailer (bodyLength : Nat) (padding : Int) : Bytes :=
  zeros (fill 4 bodyLength) ++
    if padding = 0 then [] else zeros (padding - 1).toNat ++ [UInt8.ofNat padding.toNat]

/-- Everything after the four header bytes. -/
def RtcpPacket.payload (pkt : RtcpPacket) : Bytes :=
  pkt.body ++ trailer pkt.body.length pkt.paddingSize

def rtcpByte0 (padding count : Int) : Nat :=
  (2 <<< 6) ||| ((if padding ≠ 0 then 1 else 0) <<< 5) ||| (count % 0x20).toNat

def RtcpPacket.header (pkt : RtcpPacket) : Bytes :=
  Fmt.wire .B (rtcpByte0 pkt.paddingSize pkt.count) ++ (Fmt.wire .B pkt.packetType.value ++
    Fmt.wire .H (pkt.payload.length / 4 : Nat))

def RtcpPacket.wire (pkt : RtcpPacket) : Bytes := pkt.header ++ pkt.payload

/-- The packets `_build_one` accepts. -/
structure RtcpPacket.Buildable (pkt : RtcpPacket) : Prop where
  body : pkt.BodyBuildable
  paddingRange : 0 ≤ pkt.paddingSize ∧ pkt.paddingSize ≤ u8
  paddingAligned : pkt.paddingSize % 4 = 0
  words : pkt.payload.length / 4 ≤ 0xFFFF

theorem requireCount_eq_ok {count : Nat} {field : String} {u : Unit} :
    requireCount count field = .ok u ↔ count ≤ maxCount := require_eq_ok

theorem serializeSr_eq_ok {pkt : SenderReport} {s : Serialized} :
    serializeSr pkt = .ok s ↔ (RtcpPacket.senderReport pkt).BodyBuildable ∧
      s = ((RtcpPacket.senderReport pkt).count, .sr, (RtcpPacket.senderReport pkt).body) := by
  simp only [serializeSr, bind_eq_ok, requireCount_eq_ok, structPack_eq_ok, pure_eq_ok,
    mapM_eq_ok_of_spec fun x y => serializeReportBlock_eq_ok,
    exists_const, List.forall_mem_cons, List.flatMap_cons, List.flatMap_nil, List.append_nil]
  constructor
  · rintro ⟨hc, _, ⟨⟨hs, h1, h2, h3, h4, h5, _⟩, rfl⟩, _, ⟨hb, rfl⟩, rfl⟩
    exact ⟨⟨hs, ⟨h1, h2, h3, h4, h5⟩, hc, hb⟩,
      by simp [RtcpPacket.count, RtcpPacket.body, SenderInfo.wire]⟩
  · rintro ⟨⟨hs, hi, hc, hb⟩, rfl⟩
    exact ⟨hc, _, ⟨⟨hs, hi.ntpSeconds, hi.ntpFraction, hi.rtpTimestamp, hi.packetCount,
      hi.octetCount, by simp⟩, rfl⟩, _, ⟨hb, rfl⟩,
      by simp [RtcpPacket.count, RtcpPacket.body, SenderInfo.wire]⟩

theorem serializeRr_eq_ok {pkt : ReceiverReport} {s : Serialized} :
    serializeRr pkt = .ok s ↔ (RtcpPacket.receiverReport pkt).BodyBuildable ∧
      s = ((RtcpPacket.receiverReport pkt).count, .rr, (RtcpPacket.receiverReport pkt).body) := by
  simp only [serializeRr, bind_eq_ok, requireCount_eq_ok, structPack_eq_ok, pure_eq_ok,
    mapM_eq_ok_of_spec fun x y => serializeReportBlock_eq_ok,
    exists_const, List.forall_mem_cons, List.flatMap_cons, List.flatMap_nil, List.append_nil]
  constructor
  · rintro ⟨hc, _, ⟨⟨hs, _⟩, rfl⟩, _, ⟨hb, rfl⟩, rfl⟩
    exact ⟨⟨hs, hc, hb⟩, rfl⟩
  · rintro ⟨⟨hs, hc, hb⟩, rfl⟩
    exact ⟨hc, _, ⟨⟨hs, by simp⟩, rfl⟩, _, ⟨hb, rfl⟩, rfl⟩

theorem serializeSdes_eq_ok {pkt : SourceDescription} {s : Serialized} :
    serializeSdes pkt = .ok s ↔ (RtcpPacket.sourceDescription pkt).BodyBuildable ∧
      s = ((RtcpPacket.sourceDescription pkt).count, .sdes,
        (RtcpPacket.sourceDescription pkt).body) := by
  simp only [serializeSdes, bind_eq_ok, requireCount_eq_ok, pure_eq_ok, exists_const,
    mapM_eq_ok_of_spec fun x y => serializeSdesChunk_eq_ok]
  constructor
  · rintro ⟨hc, _, ⟨hb, rfl⟩, rfl⟩
    exact ⟨⟨hc, hb⟩, rfl⟩
  · rintro ⟨⟨hc, hb⟩, rfl⟩
    exact ⟨hc, _, ⟨hb, rfl⟩, rfl⟩

theorem serializeBye_eq_ok {pkt : Goodbye} {s : Serialized} :
    serializeBye pkt = .ok s ↔ (RtcpPacket.goodbye pkt).BodyBuildable ∧
      s = ((RtcpPacket.goodbye pkt).count, .bye, (RtcpPacket.goodbye pkt).body) := by
  simp only [serializeBye, bind_eq_ok, requireCount_eq_ok, pure_eq_ok, exists_const,
    structPack_eq_ok, serializeReason_eq_ok, List.forall_mem_map, List.flatMap_map]
  constructor
  · rintro ⟨hc, _, ⟨hs, rfl⟩, _, ⟨hr, rfl⟩, rfl⟩
    exact ⟨⟨hc, hs, hr⟩, by simp [RtcpPacket.count, RtcpPacket.body, List.flatMap_def]⟩
  · rintro ⟨⟨hc, hs, hr⟩, rfl⟩
    exact ⟨hc, _, ⟨hs, rfl⟩, _, ⟨hr, rfl⟩,
      by simp [RtcpPacket.count, RtcpPacket.body, List.flatMap_def]⟩

theorem serializeApp_eq_ok {pkt : ApplicationDefined} {s : Serialized} :
    serializeApp pkt = .ok s ↔ (RtcpPacket.applicationDefined pkt).BodyBuildable ∧
      s = ((RtcpPacket.applicationDefined pkt).count, .app,
        (RtcpPacket.applicationDefined pkt).body) := by
  simp only [serializeApp, bind_eq_ok, require_eq_ok, exists_const]
  cases hn : encodeAscii pkt.name with
  | none => simp [RtcpPacket.BodyBuildable, hn]
  | some name =>
    simp only [bind_eq_ok, require_eq_ok, structPack_eq_ok, pure_eq_ok, exists_const,
      List.forall_mem_cons, List.flatMap_cons, List.flatMap_nil, List.append_nil]
    constructor
    · rintro ⟨ht, hl, _, ⟨⟨hs, _⟩, rfl⟩, rfl⟩
      exact ⟨⟨ht, ⟨name, hn, hl⟩, hs⟩, by simp [RtcpPacket.count, RtcpPacket.body, hn]⟩
    · rintro ⟨⟨ht, ⟨name', hn', hl⟩, hs⟩, rfl⟩
      cases Option.some.inj (hn.symm.trans hn')
      exact ⟨ht, hl, _, ⟨⟨hs, by simp⟩, rfl⟩, by simp [RtcpPacket.count, RtcpPacket.body, hn]⟩

/-- Each serializer checks the packet's own fields and yields its count, type and body. -/
theorem serialize_eq_ok {pkt : RtcpPacket} {s : Serialized} :
    serialize pkt = .ok s ↔ pkt.BodyBuildable ∧ s = (pkt.count, pkt.packetType, pkt.body) := by
  cases pkt with
  | senderReport pkt => exact serializeSr_eq_ok
  | receiverReport pkt => exact serializeRr_eq_ok
  | sourceDescription pkt => exact serializeSdes_eq_ok
  | goodbye pkt => exact serializeBye_eq_ok
  | applicationDefined pkt => exact serializeApp_eq_ok

theorem convertStructError_eq_ok {α : Type} {className : String} {r : Except Error α} {a : α} :
    convertStructError className r = .ok a ↔ r = .ok a := by
  unfold convertStructError
  split
  next => simp
  next => rfl

theorem rtcpByte0_lt (padding count : Int) : rtcpByte0 padding count < 256 := by
  have hcount : (count % 0x20).toNat < 2 ^ 5 := by omega
  unfold rtcpByte0
  refine Nat.or_lt_two_pow (n := 8) (Nat.or_lt_two_pow (by decide) ?_) (by omega)
  split
  next => decide
  next => decide

theorem RtcpPacketType.value_fits (t : RtcpPacketType) : Fmt.Fits .B t.value := by
  rw [Fmt.fits_B]
  cases t with
  | sr => decide
  | rr => decide
  | sdes => decide
  | bye => decide
  | app => decide

/-- `_build_one` succeeds on exactly the buildable packets and writes their wire image. -/
theorem buildOne_eq_ok {pkt : RtcpPacket} {b : Bytes} :
    buildOne pkt = .ok b ↔ pkt.Buildable ∧ b = pkt.wire := by
  have hbody : (if pkt.paddingSize ≠ 0 then pkt.body ++ zeros (fill 4 pkt.body.length) ++
      (zeros (pkt.paddingSize - 1).toNat ++ [UInt8.ofNat pkt.paddingSize.toNat])
      else pkt.body ++ zeros (fill 4 pkt.body.length)) = pkt.payload := by
    by_cases hp : pkt.paddingSize = 0
    · simp [RtcpPacket.payload, trailer, hp]
    · simp [RtcpPacket.payload, trailer, hp]
  have hb0 : Fmt.Fits .B (rtcpByte0 pkt.paddingSize pkt.count : Nat) := by
    have hlt := rtcpByte0_lt pkt.paddingSize pkt.count
    rw [Fmt.fits_B]
    omega
  simp only [buildOne, bind_eq_ok, convertStructError_eq_ok, serialize_eq_ok]
  constructor
  · rintro ⟨_, ⟨hv, rfl⟩, h⟩
    simp only [require_eq_ok, exists_const, structPack_eq_ok, pure_eq_ok, alignPad_eq, hbody,
      List.forall_mem_cons, List.flatMap_cons, List.flatMap_nil, List.append_nil] at h
    obtain ⟨hr, ha, _, ⟨⟨_, _, hw, _⟩, rfl⟩, rfl⟩ := h
    rw [Fmt.fits_H] at hw
    exact ⟨⟨hv, hr, ha, by omega⟩, rfl⟩
  · rintro ⟨h, rfl⟩
    refine ⟨_, ⟨h.body, rfl⟩, ?_⟩
    simp only [require_eq_ok, exists_const, structPack_eq_ok, pure_eq_ok, alignPad_eq, hbody,
      List.forall_mem_cons, List.flatMap_cons, List.flatMap_nil, List.append_nil]
    have hw := h.words
    exact ⟨h.paddingRange, h.paddingAligned, _, ⟨⟨hb0, pkt.packetType.value_fits,
      Fmt.fits_H.mpr (by omega), by simp⟩, rfl⟩, rfl⟩

theorem buildRtcp_eq_ok {packets : List RtcpPacket} {b : Bytes} :
    buildRtcp packets = .ok b ↔
      (∀ pkt ∈ packets, pkt.Buildable) ∧ b = (packets.map RtcpPacket.wire).flatten := by
  simp only [buildRtcp, bind_eq_ok, pure_eq_ok, mapM_eq_ok_of_spec fun x y => buildOne_eq_ok]
  constructor
  · rintro ⟨_, ⟨hv, rfl⟩, rfl⟩
    exact ⟨hv, rfl⟩
  · rintro ⟨hv, rfl⟩
    exact ⟨_, ⟨hv, rfl⟩, rfl⟩

end Rtpkit

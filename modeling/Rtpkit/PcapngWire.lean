import Rtpkit.PcapngFraming
import Rtpkit.PcapngWriter
import Rtpkit.Requantised
import Rtpkit.RtcpRoundTrip

namespace Rtpkit

open Outcome Chunk Alignment

def padded (body : Bytes) : Bytes := body ++ zeros (fill 4 body.length)

def blockLength (body : Bytes) : Nat := 8 + (padded body).length + 4

def blockWire (blockType : Nat) (body : Bytes) : Bytes :=
  Fmt.wireIn .little .I blockType ++ (Fmt.wireIn .little .I (blockLength body) ++
    (padded body ++ Fmt.wireIn .little .I (blockLength body)))

/-- A block in a byte order, with its total length before and after the padded body. -/
def blockWireIn (order : ByteOrder) (blockType : Nat) (body : Bytes) : Bytes :=
  Fmt.wireIn order .I blockType ++ (Fmt.wireIn order .I (blockLength body) ++
    (padded body ++ Fmt.wireIn order .I (blockLength body)))

@[simp] theorem length_blockWireIn (order : ByteOrder) (blockType : Nat) (body : Bytes) :
    (blockWireIn order blockType body).length = blockLength body := by
  simp only [blockWireIn, blockLength, List.length_append, Fmt.length_wireIn, Fmt.size_I]
  omega

@[simp] theorem length_blockWire (blockType : Nat) (body : Bytes) :
    (blockWire blockType body).length = blockLength body :=
  length_blockWireIn .little blockType body

theorem length_padded (body : Bytes) :
    (padded body).length = body.length + fill 4 body.length := by
  rw [padded, List.length_append, length_zeros]

theorem wrapBlock_eq_ok {blockType : Nat} {body b : Bytes} :
    wrapBlock blockType body = .ok b ↔
      (Fmt.Fits .I blockType ∧ Fmt.Fits .I (blockLength body : Nat)) ∧
        b = blockWire blockType body := by
  simp only [wrapBlock, alignPad_eq, bind_eq_ok, packIn_eq_ok, pure_eq_ok, List.forall_mem_cons,
    List.flatMap_cons, List.flatMap_nil, List.append_nil]
  constructor
  · rintro ⟨_, ⟨⟨htype, hlen, -⟩, rfl⟩, _, ⟨-, rfl⟩, rfl⟩
    exact ⟨⟨htype, hlen⟩, by simp [blockWire, blockLength, padded]⟩
  · rintro ⟨⟨htype, hlen⟩, rfl⟩
    refine ⟨_, ⟨⟨htype, hlen, by simp⟩, rfl⟩, _, ⟨⟨hlen, by simp⟩, rfl⟩, ?_⟩
    simp [blockWire, blockLength, padded]

def shbBody : Bytes :=
  bomLittleEndian ++ (Fmt.wireIn .little .H 1 ++ Fmt.wireIn .little .H 0 ++
    signedWire .little 8 (-1))

def idbBody (linkType : Int) : Bytes :=
  Fmt.wireIn .little .H linkType ++ (Fmt.wireIn .little .H 0 ++ Fmt.wireIn .little .I 262144)

def epbBody (ifaceId : Nat) (pkt : PcapPacket) : Bytes :=
  Fmt.wireIn .little .I ifaceId ++ (Fmt.wireIn .little .I (pkt.tick / 2 ^ 32 % 2 ^ 32) ++
    (Fmt.wireIn .little .I (pkt.tick % 2 ^ 32) ++ (Fmt.wireIn .little .I pkt.data.length ++
      (Fmt.wireIn .little .I pkt.originalLength ++ pkt.data))))

theorem buildShb_eq : buildShb = .ok (blockWire shbType shbBody) := by decide +kernel

theorem length_idbBody (linkType : Int) : (idbBody linkType).length = 8 := by
  simp [idbBody]

theorem blockLength_idbBody (linkType : Int) : blockLength (idbBody linkType) = 20 := by
  rw [blockLength, length_padded, length_idbBody]
  rfl

theorem buildIdb_eq_ok {linkType : Int} {b : Bytes} :
    buildIdb linkType = .ok b ↔ Fmt.Fits .H linkType ∧ b = blockWire idbType (idbBody linkType) := by
  simp only [buildIdb, bind_eq_ok, packIn_eq_ok, List.forall_mem_cons, List.flatMap_cons,
    List.flatMap_nil, List.append_nil]
  constructor
  · rintro ⟨_, ⟨⟨hlink, -⟩, rfl⟩, h⟩
    exact ⟨hlink, (wrapBlock_eq_ok.mp h).2⟩
  · rintro ⟨hlink, rfl⟩
    have hconst : Fmt.Fits .H 0 ∧ Fmt.Fits .I 262144 ∧ Fmt.Fits .I idbType ∧ Fmt.Fits .I (20 : Nat) := by
      decide
    refine ⟨idbBody linkType, ⟨⟨hlink, hconst.1, hconst.2.1, by simp⟩, rfl⟩,
      wrapBlock_eq_ok.mpr ⟨⟨hconst.2.2.1, ?_⟩, rfl⟩⟩
    rw [blockLength_idbBody]
    exact hconst.2.2.2

theorem length_epbBody (ifaceId : Nat) (pkt : PcapPacket) :
    (epbBody ifaceId pkt).length = 20 + pkt.data.length := by
  simp only [epbBody, List.length_append, Fmt.length_wireIn, Fmt.size_I]
  omega

theorem tick_words_fit (pkt : PcapPacket) :
    Fmt.Fits .I (pkt.tick / 2 ^ 32 % 2 ^ 32) ∧ Fmt.Fits .I (pkt.tick % 2 ^ 32) := by
  rw [Fmt.fits_I, Fmt.fits_I]
  omega

/-- What a packet needs so that its block can be built. -/
structure PcapPacket.FitsBlock (pkt : PcapPacket) : Prop where
  originalLength : Fmt.Fits .I pkt.originalLength
  block : 32 + (pkt.data.length + fill 4 pkt.data.length) < 2 ^ 32

theorem blockLength_epbBody (ifaceId : Nat) (pkt : PcapPacket) :
    blockLength (epbBody ifaceId pkt) = 32 + (pkt.data.length + fill 4 pkt.data.length) := by
  have halign : fill 4 (20 + pkt.data.length) = fill 4 pkt.data.length :=
    fill_add rfl _
  rw [blockLength, length_padded, length_epbBody, halign]
  omega

theorem buildEpb_eq_ok {ifaceId : Nat} {pkt : PcapPacket} {b : Bytes} :
    buildEpb ifaceId pkt = .ok b ↔
      Fmt.Fits .I ifaceId ∧ pkt.FitsBlock ∧ b = blockWire epbType (epbBody ifaceId pkt) := by
  simp only [buildEpb, bind_eq_ok, packIn_eq_ok, List.forall_mem_cons, List.flatMap_cons,
    List.flatMap_nil, List.append_nil]
  have hbody : Fmt.wireIn .little .I ifaceId ++
      (Fmt.wireIn .little .I (roundHalfEven (pkt.timestamp * 1000000) / 2 ^ 32 % 2 ^ 32) ++
        (Fmt.wireIn .little .I (roundHalfEven (pkt.timestamp * 1000000) % 2 ^ 32) ++
          (Fmt.wireIn .little .I pkt.data.length ++
            Fmt.wireIn .little .I pkt.originalLength))) ++ pkt.data = epbBody ifaceId pkt := by
    simp [epbBody, PcapPacket.tick]
  constructor
  · rintro ⟨_, ⟨⟨hid, -, -, -, horig, -⟩, rfl⟩, h⟩
    rw [hbody] at h
    obtain ⟨⟨-, hblock⟩, rfl⟩ := wrapBlock_eq_ok.mp h
    rw [blockLength_epbBody, Fmt.fits_I] at hblock
    exact ⟨hid, ⟨horig, by omega⟩, rfl⟩
  · rintro ⟨hid, hfits, rfl⟩
    have hblock := hfits.block
    obtain ⟨hhigh, hlow⟩ := tick_words_fit pkt
    refine ⟨_, ⟨⟨hid, hhigh, hlow, Fmt.fits_I.mpr (by omega), hfits.originalLength, by simp⟩, rfl⟩, ?_⟩
    rw [hbody]
    refine wrapBlock_eq_ok.mpr ⟨⟨by decide, ?_⟩, rfl⟩
    rw [blockLength_epbBody, Fmt.fits_I]
    omega

end Rtpkit

import Rtpkit.PcapngOptions
import Rtpkit.PcapngReadBack

namespace Rtpkit

open Outcome Chunk Alignment

structure InterfaceBlock where
  linkType : Nat
  snapLength : Nat
  options : List (Nat × Bytes)
  optionsEnded : Bool
  deriving DecidableEq, Repr

structure PacketBlock where
  interfaceId : Nat
  ticks : Nat
  data : Bytes
  originalLength : Nat
  options : Bytes
  deriving DecidableEq, Repr

/-- The blocks of a section, whatever the byte order. -/
inductive Block
  | interface (block : InterfaceBlock)
  | packet (block : PacketBlock)
  | other (blockType : Nat) (body : Bytes)
  deriving DecidableEq, Repr

structure InterfaceBlock.Fits (block : InterfaceBlock) : Prop where
  linkType : block.linkType < 2 ^ 16
  snapLength : block.snapLength < 2 ^ 32
  options : ∀ option ∈ block.options, OptionFits option

structure PacketBlock.Fits (block : PacketBlock) : Prop where
  interfaceId : block.interfaceId < 2 ^ 32
  ticks : block.ticks < 2 ^ 64
  originalLength : block.originalLength < 2 ^ 32

def InterfaceBlock.body (order : ByteOrder) (block : InterfaceBlock) : Bytes :=
  Fmt.wireIn order .H block.linkType ++ (Fmt.wireIn order .H 0 ++
    (Fmt.wireIn order .I block.snapLength ++ optionsWire order block.options block.optionsEnded))

def PacketBlock.body (order : ByteOrder) (block : PacketBlock) : Bytes :=
  Fmt.wireIn order .I block.interfaceId ++ (Fmt.wireIn order .I (block.ticks / 2 ^ 32 : Nat) ++
    (Fmt.wireIn order .I (block.ticks % 2 ^ 32 : Nat) ++ (Fmt.wireIn order .I block.data.length ++
      (Fmt.wireIn order .I block.originalLength ++ (padded block.data ++ block.options)))))

namespace Block

def blockType : Block → Nat
  | interface _ => idbType
  | packet _ => epbType
  | other blockType _ => blockType

def body (order : ByteOrder) : Block → Bytes
  | interface block => block.body order
  | packet block => block.body order
  | other _ body => body

def wire (order : ByteOrder) (block : Block) : Bytes :=
  blockWireIn order block.blockType (block.body order)

def ContentFits : Block → Prop
  | interface block => block.Fits
  | packet block => block.Fits
  | other blockType _ => blockType < 2 ^ 32 ∧ blockType ∉ [idbType, spbType, epbType, shbType]

/-- The fields have room in the block, and its length in the two places for it. -/
structure Fits (block : Block) : Prop where
  content : block.ContentFits
  length : ∀ order, blockLength (block.body order) < 2 ^ 32

def interface? : Block → Option InterfaceBlock
  | interface block => some block
  | _ => none

def packet? : Block → Option PacketBlock
  | packet block => some block
  | _ => none

end Block

def interfaceBlocks (blocks : List Block) : List InterfaceBlock := blocks.filterMap Block.interface?

def packetBlocks (blocks : List Block) : List PacketBlock := blocks.filterMap Block.packet?

/-- A section whose packets refer to interfaces that are described before them. -/
structure Section where
  blocks : List Block
  fits : ∀ block ∈ blocks, block.Fits
  declared : ∀ before packet after, blocks = before ++ .packet packet :: after →
    packet.interfaceId < (interfaceBlocks before).length

/-- The section after a Section Header Block with anything behind its byte-order magic. -/
def Section.image (sec : Section) (order : ByteOrder) (header : Bytes) : Bytes :=
  blockWireIn order shbType (bom order ++ header) ++ (sec.blocks.map (Block.wire order)).flatten

/-- The packet that a block holds, taken by an interface. -/
def PacketBlock.takenBy (iface : InterfaceBlock) (block : PacketBlock) : PcapPacket where
  timestamp := (block.ticks : ℚ) / tsResolution iface.options
  capturedLength := block.data.length
  originalLength := block.originalLength
  linkType := iface.linkType
  data := block.data

def InterfaceBlock.read (block : InterfaceBlock) : Interface where
  linkType := block.linkType
  tsResolution := tsResolution block.options

/-- The packet of a block among the interfaces of its section. -/
def Block.yields (interfaces : List InterfaceBlock) (block : Block) : Option PcapPacket :=
  block.packet?.bind fun packet =>
    interfaces[packet.interfaceId]?.map fun iface => packet.takenBy iface

def Section.packets (sec : Section) : List PcapPacket :=
  sec.blocks.filterMap (Block.yields (interfaceBlocks sec.blocks))

theorem interfaceBlocks_append (xs ys : List Block) :
    interfaceBlocks (xs ++ ys) = interfaceBlocks xs ++ interfaceBlocks ys :=
  List.filterMap_append

section ReadBack

variable {order : ByteOrder}

theorem length_interfaceBody_mod (order : ByteOrder) (block : InterfaceBlock) :
    (block.body order).length % 4 = 0 := by
  have hoptions := length_optionsWire_mod order block.options block.optionsEnded
  simp only [InterfaceBlock.body, List.length_append, Fmt.length_wireIn, Fmt.size_H, Fmt.size_I]
  omega

theorem parseIdb_body {block : InterfaceBlock} (h : block.Fits) :
    parseIdb (padded (block.body order)) order = .ok block.read := by
  have halign : fill 4 (block.body order).length = 0 :=
    fill_eq_zero (length_interfaceBody_mod order block)
  rw [padded_of_aligned halign]
  generalize hd : block.body order = d
  have hstands : StandsAt d 0 (block.body order) := hd ▸ standsAt_self _
  have hlen := congrArg List.length hd
  simp only [InterfaceBlock.body, standsAt_append, List.length_append, Fmt.length_wireIn,
    Fmt.size_H, Fmt.size_I] at hstands hlen
  obtain ⟨hlinkAt, -, -, hoptionsAt⟩ := hstands
  have hlink : Fmt.Fits .H (block.linkType : Nat) := Fmt.fits_H.mpr (by have := h.linkType; omega)
  have hoptions := hoptionsAt.slice_eq
  rw [show 0 + 2 + 2 + 4 + (optionsWire order block.options block.optionsEnded).length =
    d.length by omega] at hoptions
  rw [parseIdb, require_pos (by omega), bind_ok, unpackIn_of_standsAt hlink hlinkAt, bind_ok,
    hoptions, parseIfTsresol_eq_ok (iterOptions_optionsWire h.options), bind_ok,
    Int.toNat_natCast]
  rfl

theorem ticks_words (ticks : Nat) : (ticks / 2 ^ 32) <<< 32 ||| ticks % 2 ^ 32 = ticks := by
  rw [← Nat.shiftLeft_add_eq_or_of_lt (Nat.mod_lt _ (by decide)), Nat.shiftLeft_eq]
  omega

theorem length_packetBody (order : ByteOrder) (block : PacketBlock) :
    (block.body order).length = 20 + ((padded block.data).length + block.options.length) := by
  simp only [PacketBlock.body, List.length_append, Fmt.length_wireIn, Fmt.size_I]
  omega

theorem parseEpb_body {block : PacketBlock} {interfaces : List Interface} {iface : InterfaceBlock}
    (h : block.Fits) (hlen : blockLength (block.body order) < 2 ^ 32)
    (hiface : interfaces[block.interfaceId]? = some iface.read) :
    parseEpb (padded (block.body order)) order interfaces = .ok (block.takenBy iface) := by
  have hticks := h.ticks
  have hid : Fmt.Fits .I (block.interfaceId : Nat) :=
    Fmt.fits_I.mpr (by have := h.interfaceId; omega)
  have hhigh : Fmt.Fits .I (block.ticks / 2 ^ 32 : Nat) := Fmt.fits_I.mpr (by omega)
  have hlow : Fmt.Fits .I (block.ticks % 2 ^ 32 : Nat) := Fmt.fits_I.mpr (by omega)
  have horig : Fmt.Fits .I (block.originalLength : Nat) :=
    Fmt.fits_I.mpr (by have := h.originalLength; omega)
  have hcap : Fmt.Fits .I (block.data.length : Nat) := by
    rw [blockLength, length_padded, length_packetBody, length_padded] at hlen
    exact Fmt.fits_I.mpr (by omega)
  have hstands : StandsAt (padded (block.body order)) 0
      (Fmt.wireIn order .I block.interfaceId ++ (Fmt.wireIn order .I (block.ticks / 2 ^ 32 : Nat) ++
        (Fmt.wireIn order .I (block.ticks % 2 ^ 32 : Nat) ++
          (Fmt.wireIn order .I block.data.length ++
            (Fmt.wireIn order .I block.originalLength ++ block.data))))) :=
    ⟨[], zeros (fill 4 block.data.length) ++
      (block.options ++ zeros (fill 4 (block.body order).length)),
      by simp [padded, PacketBlock.body], rfl⟩
  rw [parseEpb_of_standsAt hid hhigh hlow hcap horig hstands hiface, Int.toNat_natCast,
    Int.toNat_natCast, ticks_words]
  rfl

theorem wireIn_ne_shbMagic {blockType : Nat} (hlt : blockType < 2 ^ 32) (hne : blockType ≠ shbType) :
    Fmt.wireIn order .I blockType ≠ shbMagic := by
  intro heq
  have hfits : Fmt.Fits .I (blockType : Nat) := Fmt.fits_I.mpr (by omega)
  have hread := unpackIn_of_standsAt hfits (standsAt_self (Fmt.wireIn order .I blockType))
  have hmagic := unpackIn_of_standsAt (by decide) (standsAt_self (Fmt.wireIn order .I shbType))
  rw [heq, ← wireIn_shbType order, hmagic] at hread
  exact hne (Except.ok.inj hread).symm

theorem blockResult_other {hdr : BlockHeader} (body : Bytes)
    (h : hdr.blockType ∉ [idbType, spbType, epbType, shbType]) :
    blockResult hdr body =
      ({ order := some hdr.order, interfaces := hdr.interfaces }, none, none) := by
  simp only [List.mem_cons, not_or] at h
  obtain ⟨hidb, hspb, hepb, -⟩ := h
  have hparse : parseBlock hdr body = .ok (hdr.interfaces, none) := by
    rw [parseBlock, if_neg hidb, if_neg hepb, if_neg hspb]
    rfl
  rw [blockResult, hparse]

theorem Block.blockType_fits {block : Block} (h : block.ContentFits) :
    block.blockType < 2 ^ 32 ∧ block.blockType ≠ shbType := by
  cases block with
  | interface block => exact (show idbType < 2 ^ 32 ∧ idbType ≠ shbType by decide)
  | packet block => exact (show epbType < 2 ^ 32 ∧ epbType ≠ shbType by decide)
  | other blockType body =>
    refine ⟨h.1, ?_⟩
    rintro rfl
    simp [ContentFits] at h

/-- The state of the reader after some blocks of a section. -/
def stateAfter (order : ByteOrder) (blocks : List Block) : PcapngState where
  order := some order
  interfaces := (interfaceBlocks blocks).map InterfaceBlock.read

def addBlock (state : PcapngState) (block : Block) : PcapngState where
  order := state.order
  interfaces := state.interfaces ++ (interfaceBlocks [block]).map InterfaceBlock.read

theorem addBlock_stateAfter (done : List Block) (block : Block) :
    addBlock (stateAfter order done) block = stateAfter order (done ++ [block]) := by
  rw [addBlock, stateAfter, stateAfter, interfaceBlocks_append, List.map_append]

theorem stateAfter_of_interface?_none {block : Block} (done : List Block)
    (h : block.interface? = none) : stateAfter order (done ++ [block]) = stateAfter order done := by
  have hnone : interfaceBlocks [block] = [] := List.filterMap_cons_none h
  rw [stateAfter, stateAfter, interfaceBlocks_append, hnone, List.append_nil]

theorem forall₂_yields {interfaces : List InterfaceBlock} {blocks : List Block}
    (h : ∀ packet, .packet packet ∈ blocks → ∃ iface,
      interfaces[packet.interfaceId]? = some iface) :
    List.Forall₂ (fun block packet => ∃ iface, interfaces[block.interfaceId]? = some iface ∧
      packet = PacketBlock.takenBy iface block) (packetBlocks blocks)
      (blocks.filterMap (Block.yields interfaces)) := by
  induction blocks with
  | nil => exact .nil
  | cons block blocks ih =>
    have htail := ih fun packet hpacket => h packet (by simp [hpacket])
    cases block with
    | interface block => exact htail
    | other blockType body => exact htail
    | packet packet =>
      obtain ⟨iface, hiface⟩ := h packet (by simp)
      have hyields : (Block.packet packet).yields interfaces = some (packet.takenBy iface) := by
        rw [Block.yields, Block.packet?, Option.bind_some, hiface]
        rfl
      rw [List.filterMap_cons_some hyields]
      exact .cons ⟨iface, hiface, rfl⟩ htail

end ReadBack

namespace Section

variable (sec : Section) {order : ByteOrder}

theorem getElem?_interfaceBlocks {done rest : List Block} {packet : PacketBlock}
    (h : sec.blocks = done ++ .packet packet :: rest) :
    ∃ iface, (interfaceBlocks done)[packet.interfaceId]? = some iface ∧
      (interfaceBlocks sec.blocks)[packet.interfaceId]? = some iface := by
  have hlt := sec.declared done packet rest h
  refine ⟨_, List.getElem?_eq_getElem hlt, ?_⟩
  rw [h, interfaceBlocks_append, List.getElem?_append_left hlt, List.getElem?_eq_getElem hlt]

/-- The block after those that are done is read as what it describes. -/
theorem pcapngHead_wire {done rest : List Block} {block : Block}
    (h : sec.blocks = done ++ block :: rest) (tail : Bytes) :
    pcapngHead (stateAfter order done) (block.wire order ++ tail) =
      .unit (block.wire order).length (stateAfter order (done ++ [block])) none
        (block.yields (interfaceBlocks sec.blocks)) := by
  obtain ⟨hcontent, hlength⟩ := sec.fits block (by rw [h]; simp)
  obtain ⟨htype, hshb⟩ := Block.blockType_fits hcontent
  have hlen : Fmt.Fits .I (blockLength (block.body order) : Nat) :=
    Fmt.fits_I.mpr (by have := hlength order; omega)
  apply pcapngHead_blockWireIn (Fmt.fits_I.mpr (by omega)) hlen
    (startSection_blockWireIn (wireIn_ne_shbMagic htype hshb))
  cases block with
  | interface block =>
    refine (blockResult_idb rfl (parseIdb_body hcontent)).trans ?_
    rw [stateAfter, interfaceBlocks_append, List.map_append]
    rfl
  | packet packet =>
    obtain ⟨iface, hdone, hall⟩ := sec.getElem?_interfaceBlocks h
    have hiface : (stateAfter order done).interfaces[packet.interfaceId]? = some iface.read := by
      rw [stateAfter, List.getElem?_map, hdone]
      rfl
    have hyields : (Block.packet packet).yields (interfaceBlocks sec.blocks) =
        some (packet.takenBy iface) := by
      rw [Block.yields, Block.packet?, Option.bind_some, hall]
      rfl
    rw [stateAfter_of_interface?_none done rfl, hyields]
    exact blockResult_epb rfl (parseEpb_body hcontent (hlength order) hiface)
  | other blockType body =>
    rw [stateAfter_of_interface?_none done rfl]
    exact blockResult_other _ hcontent.2

theorem run_wires (order : ByteOrder) (strict : Bool) :
    pcapngFraming.run strict (stateAfter order []) (sec.blocks.map (Block.wire order)).flatten =
      ⟨sec.packets, none⟩ := by
  have hrun : pcapngFraming.run strict (stateAfter order [])
        ((sec.blocks.map (Block.wire order)).flatten ++ []) =
      (pcapngFraming.run strict (sec.blocks.foldl addBlock (stateAfter order [])) []).prepend
        sec.packets := by
    apply Framing.run_append_all_units
      fun state blocks => ∃ done, sec.blocks = done ++ blocks ∧ state = stateAfter order done
    · rintro _ block blocks ⟨done, hsplit, rfl⟩ rest
      rw [addBlock_stateAfter]
      exact sec.pcapngHead_wire hsplit rest
    · rintro _ block blocks ⟨done, hsplit, rfl⟩
      exact ⟨done ++ [block], by rw [hsplit]; simp, addBlock_stateAfter done block⟩
    · exact ⟨[], rfl, rfl⟩
  rw [List.append_nil, Framing.run_nil] at hrun
  rw [hrun, Yielded.prepend, List.append_nil]

theorem readPcapng_image {header : Bytes} (h : blockLength (bom order ++ header) < 2 ^ 32) :
    readPcapng (sec.image order header) = ⟨sec.packets, none⟩ := by
  have hmin := minBlockSize_le_blockLength (bom order ++ header)
  have hlen : minBlockSize ≤ (sec.image order header).length := by
    rw [image, List.length_append, length_blockWireIn]
    omega
  have hhead := pcapngHead_shbWire { order := none, interfaces := [] } h
    (sec.blocks.map (Block.wire order)).flatten
  rw [← pcapngFraming_head] at hhead
  rw [readPcapng, readPcapngMode_eq_run true hlen, image, Framing.run_append_unit hhead]
  exact sec.run_wires order true

/-- Every packet block gives one packet, taken by the interface that it names. -/
theorem forall₂_packets :
    List.Forall₂ (fun block packet => ∃ iface,
      (interfaceBlocks sec.blocks)[block.interfaceId]? = some iface ∧
        packet = PacketBlock.takenBy iface block) (packetBlocks sec.blocks) sec.packets := by
  apply forall₂_yields
  intro packet hpacket
  obtain ⟨done, rest, hsplit⟩ := List.append_of_mem hpacket
  obtain ⟨iface, -, hiface⟩ := sec.getElem?_interfaceBlocks hsplit
  exact ⟨iface, hiface⟩

/-- A section reads as its packet blocks, in either byte order. -/
theorem readPcapng_eq_packets :
    List.Forall₂ (fun block packet => ∃ iface,
        (interfaceBlocks sec.blocks)[block.interfaceId]? = some iface ∧
          packet = PacketBlock.takenBy iface block) (packetBlocks sec.blocks) sec.packets ∧
      (∀ order header, blockLength (bom order ++ header) < 2 ^ 32 →
        readPcapng (sec.image order header) = ⟨sec.packets, none⟩) ∧
      ∀ header header', blockLength (bom .little ++ header) < 2 ^ 32 →
        blockLength (bom .big ++ header') < 2 ^ 32 →
        readPcapng (sec.image .little header) = readPcapng (sec.image .big header') := by
  refine ⟨sec.forall₂_packets, fun order header => sec.readPcapng_image, ?_⟩
  intro header header' hlittle hbig
  rw [sec.readPcapng_image hlittle, sec.readPcapng_image hbig]

/-- An interface in nanoseconds, a block of an unknown type and a packet. -/
def sample : Section where
  blocks := [.interface ⟨1, 65535, [(9, []), (9, [9]), (9, [6])], true⟩, .other 0x99 [1, 2, 3],
    .packet ⟨0, 1500000000, [7, 8], 60, [5]⟩]
  fits := by
    have hoptions : ∀ option ∈ [((9, []) : Nat × Bytes), (9, [9]), (9, [6])], OptionFits option := by
      intro option hoption
      exact ⟨by revert option; decide, by revert option; decide, by revert option; decide⟩
    intro block hblock
    simp only [List.mem_cons, List.not_mem_nil, or_false] at hblock
    rcases hblock with rfl | rfl | rfl
    · exact ⟨⟨by decide, by decide, hoptions⟩, fun order => by cases order <;> decide +kernel⟩
    · exact ⟨(by decide : _ ∧ _), fun order => by cases order <;> decide +kernel⟩
    · exact ⟨⟨by decide, by decide, by decide⟩, fun order => by cases order <;> decide +kernel⟩
  declared := by
    intro before packet after h
    rcases before with _ | ⟨_, _ | ⟨_, _ | ⟨_, before⟩⟩⟩
    · cases h
    · cases h
    · cases h
      decide
    · simp at h

theorem readPcapng_eq_packets_sample :
    readPcapng (sample.image .little (zeros 12)) = ⟨[⟨3 / 2, 2, 60, 1, [7, 8]⟩], none⟩ ∧
      readPcapng (sample.image .little (zeros 12)) = readPcapng (sample.image .big (zeros 40)) := by
  obtain ⟨-, hread, hagree⟩ := sample.readPcapng_eq_packets
  refine ⟨(hread .little (zeros 12) (by decide +kernel)).trans (by decide +kernel), ?_⟩
  exact hagree (zeros 12) (zeros 40) (by decide +kernel) (by decide +kernel)

end Section

end Rtpkit

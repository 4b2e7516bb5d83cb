import Rtpkit.PcapngSectionImage

namespace Rtpkit

open Outcome Chunk Alignment

/-- A Simple Packet Block: the length of the packet, and the bytes of it that are kept. -/
structure SimplePacketBlock where
  originalLength : Nat
  data : Bytes
  deriving DecidableEq, Repr

namespace SimplePacketBlock

def body (order : ByteOrder) (block : SimplePacketBlock) : Bytes :=
  Fmt.wireIn order .I block.originalLength ++ block.data

/-- The block keeps as many bytes as the snap length lets it. -/
structure Fits (snapLength : Nat) (block : SimplePacketBlock) : Prop where
  originalLength : block.originalLength < 2 ^ 32
  length : blockLength block.data + 4 < 2 ^ 32
  data : block.data.length = min block.originalLength snapLength

def readLength (block : SimplePacketBlock) : Nat :=
  min block.originalLength (padded block.data).length

/-- What the reader makes of the block among the interfaces described so far. -/
def read (interfaces : List Interface) (block : SimplePacketBlock) : PcapPacket where
  timestamp := 0
  capturedLength := block.readLength
  originalLength := block.originalLength
  linkType :=
    match interfaces with
    | [] => 0
    | iface :: _ => iface.linkType
  data := (padded block.data).take block.readLength

variable {block : SimplePacketBlock} {order : ByteOrder}

theorem padded_body : padded (block.body order) =
    Fmt.wireIn order .I block.originalLength ++ padded block.data := by
  have hlen : (block.body order).length = 4 + block.data.length := by
    rw [body, List.length_append, Fmt.length_wireIn, Fmt.size_I]
  have halign : fill 4 (block.body order).length = fill 4 block.data.length := by
    rw [hlen]
    exact fill_add rfl _
  rw [padded, halign, body, List.append_assoc, padded]

theorem blockLength_body : blockLength (block.body order) = blockLength block.data + 4 := by
  rw [blockLength, padded_body, List.length_append, Fmt.length_wireIn, Fmt.size_I, blockLength]
  omega

theorem parseSpb_body (h : block.originalLength < 2 ^ 32) (interfaces : List Interface) :
    parseSpb (padded (block.body order)) order interfaces = .ok (block.read interfaces) := by
  have hfits : Fmt.Fits .I (block.originalLength : Nat) := Fmt.fits_I.mpr (by omega)
  have hlen : (padded (block.body order)).length = 4 + (padded block.data).length := by
    rw [padded_body, List.length_append, Fmt.length_wireIn, Fmt.size_I]
  have hstands : StandsAt (padded (block.body order)) 0
      (Fmt.wireIn order .I block.originalLength ++ padded block.data) := by
    rw [padded_body]
    exact standsAt_self _
  obtain ⟨horig, -⟩ := standsAt_append.mp hstands
  have hdata : slice (padded (block.body order)) 4 (4 + block.readLength) =
      (padded block.data).take block.readLength := by
    refine (slice_drop _ 4 0 _).symm.trans ?_
    have hword : (Fmt.wireIn order .I block.originalLength).length = 4 := Fmt.length_wireIn _ _ _
    rw [padded_body, List.drop_left' hword, slice_zero]
  unfold parseSpb
  rw [require_pos (by omega), bind_ok, unpackIn_of_standsAt hfits horig, bind_ok,
    Int.toNat_natCast, hlen, Nat.add_sub_cancel_left]
  unfold read
  rw [← hdata]
  rfl

/-- The packet is what the block keeps exactly when no padding can pass for it. -/
theorem read_eq_kept_iff {snapLength : Nat} (h : block.Fits snapLength)
    (interfaces : List Interface) :
    ((block.read interfaces).data = block.data ∧
      (block.read interfaces).capturedLength = min block.originalLength snapLength) ↔
      block.originalLength ≤ snapLength ∨ snapLength % 4 = 0 := by
  have hkept := h.data
  have hlen := length_padded block.data
  have hpad := fill_lt 4 block.data.length
  have hwords := add_fill_mod 4 block.data.length
  constructor
  · rintro ⟨-, hcaptured⟩
    have hread : ((block.readLength : Nat) : Int) = min block.originalLength snapLength := hcaptured
    rw [readLength] at hread
    omega
  · intro hfits
    have hread : block.readLength = min block.originalLength snapLength := by
      rw [readLength]
      omega
    refine ⟨?_, by exact_mod_cast congrArg Int.ofNat hread⟩
    unfold read
    dsimp only
    rw [hread, ← hkept]
    exact List.take_left

end SimplePacketBlock

/-- What stands in a section: a block of another kind, or a Simple Packet Block. -/
inductive SectionEntry
  | other (block : Block)
  | simple (block : SimplePacketBlock)
  deriving DecidableEq, Repr

namespace SectionEntry

def other? : SectionEntry → Option Block
  | other block => some block
  | simple _ => none

def isPacket : SectionEntry → Bool
  | other block => block.packet?.isSome
  | simple _ => true

def wire (order : ByteOrder) : SectionEntry → Bytes
  | other block => block.wire order
  | simple block => blockWireIn order spbType (block.body order)

def addTo (state : PcapngState) : SectionEntry → PcapngState
  | other block => addBlock state block
  | simple _ => state

def yields (interfaces : List InterfaceBlock) (state : PcapngState) :
    SectionEntry → Option PcapPacket
  | other block => block.yields interfaces
  | simple block => some (block.read state.interfaces)

end SectionEntry

/-- A section whose Simple Packet Blocks keep to the snap length of its first interface. -/
structure SnapSection where
  entries : List SectionEntry
  others : Section
  blocks : others.blocks = entries.filterMap SectionEntry.other?
  iface : InterfaceBlock
  first : (interfaceBlocks others.blocks).head? = some iface
  snapLength : 0 < iface.snapLength
  fits : ∀ block, .simple block ∈ entries → block.Fits iface.snapLength

namespace SnapSection

variable (sec : SnapSection) {order : ByteOrder}

/-- The section after a Section Header Block with anything behind its byte-order magic. -/
def image (order : ByteOrder) (header : Bytes) : Bytes :=
  blockWireIn order shbType (bom order ++ header) ++
    (sec.entries.map (SectionEntry.wire order)).flatten

/-- The state of the reader after some of the entries. -/
def stateAfter (order : ByteOrder) (entries : List SectionEntry) : PcapngState :=
  Rtpkit.stateAfter order (entries.filterMap SectionEntry.other?)

theorem addTo_stateAfter (done : List SectionEntry) (entry : SectionEntry) :
    entry.addTo (stateAfter order done) = stateAfter order (done ++ [entry]) := by
  rw [stateAfter, stateAfter, List.filterMap_append]
  cases entry with
  | other block => exact addBlock_stateAfter _ block
  | simple block =>
    have hnone : [SectionEntry.simple block].filterMap SectionEntry.other? = [] := rfl
    rw [hnone, List.append_nil]
    rfl

theorem foldl_addTo (done entries : List SectionEntry) :
    entries.foldl SectionEntry.addTo (stateAfter order done) = stateAfter order (done ++ entries) := by
  induction entries generalizing done with
  | nil => rw [List.append_nil, List.foldl_nil]
  | cons entry entries ih =>
    rw [List.foldl_cons, addTo_stateAfter, ih, List.append_assoc, List.singleton_append]

variable {sec}

theorem blocks_of_entries {done rest : List SectionEntry} {block : Block}
    (h : sec.entries = done ++ .other block :: rest) : sec.others.blocks =
      done.filterMap SectionEntry.other? ++ block :: rest.filterMap SectionEntry.other? := by
  have hsome : (SectionEntry.other block).other? = some block := rfl
  rw [sec.blocks, h, List.filterMap_append, List.filterMap_cons_some hsome]

theorem pcapngHead_wire {done rest : List SectionEntry} {entry : SectionEntry}
    (h : sec.entries = done ++ entry :: rest) (tail : Bytes) :
    pcapngHead (stateAfter order done) (entry.wire order ++ tail) =
      .unit (entry.wire order).length (entry.addTo (stateAfter order done)) none
        (entry.yields (interfaceBlocks sec.others.blocks) (stateAfter order done)) := by
  cases entry with
  | other block =>
    rw [SectionEntry.addTo, stateAfter, addBlock_stateAfter]
    exact sec.others.pcapngHead_wire (blocks_of_entries h) tail
  | simple block =>
    have hfits := sec.fits block (by rw [h]; simp)
    have hlen : Fmt.Fits .I (blockLength (block.body order) : Nat) := by
      rw [SimplePacketBlock.blockLength_body, Fmt.fits_I]
      have hlength := hfits.length
      omega
    have hshb : Fmt.wireIn order .I spbType ≠ shbMagic :=
      wireIn_ne_shbMagic (by decide) (by decide)
    exact pcapngHead_blockWireIn (by decide) hlen (startSection_blockWireIn hshb)
      (blockResult_spb rfl (SimplePacketBlock.parseSpb_body hfits.originalLength _))

/-- The packets of some entries, each read after the ones before it. -/
def packets (sec : SnapSection) (order : ByteOrder) (done entries : List SectionEntry) :
    List PcapPacket :=
  Framing.outputs SectionEntry.addTo
    (fun state entry => entry.yields (interfaceBlocks sec.others.blocks) state)
    (stateAfter order done) entries

theorem run_image (sec : SnapSection) (strict : Bool) {header : Bytes}
    (hheader : blockLength (bom order ++ header) < 2 ^ 32) (rest : Bytes) :
    ∃ state, pcapngFraming.run strict ⟨none, []⟩ (sec.image order header ++ rest) =
      (pcapngFraming.run strict state rest).prepend (sec.packets order [] sec.entries) := by
  have hhead := pcapngHead_shbWire ⟨none, []⟩ hheader
    ((sec.entries.map (SectionEntry.wire order)).flatten ++ rest)
  rw [← pcapngFraming_head] at hhead
  refine ⟨sec.entries.foldl SectionEntry.addTo (stateAfter order []), ?_⟩
  rw [image, List.append_assoc, Framing.run_append_unit hhead]
  apply Framing.run_append_outputs
    fun state entries => ∃ done, sec.entries = done ++ entries ∧ state = stateAfter order done
  · rintro _ entry entries ⟨done, hsplit, rfl⟩ tail
    exact pcapngHead_wire hsplit tail
  · rintro _ entry entries ⟨done, hsplit, rfl⟩
    exact ⟨done ++ [entry], by rw [hsplit]; simp, addTo_stateAfter done entry⟩
  · exact ⟨[], rfl, rfl⟩

theorem isSome_yields {done rest : List SectionEntry} {entry : SectionEntry}
    (h : sec.entries = done ++ entry :: rest) (state : PcapngState) :
    (entry.yields (interfaceBlocks sec.others.blocks) state).isSome = entry.isPacket := by
  cases entry with
  | simple block => rfl
  | other block =>
    cases block with
    | interface block => rfl
    | other blockType body => rfl
    | packet packet =>
      obtain ⟨iface, -, hiface⟩ := sec.others.getElem?_interfaceBlocks (blocks_of_entries h)
      rw [SectionEntry.yields, Block.yields, Block.packet?, Option.bind_some, hiface]
      rfl

/-- Each packet entry yields one packet. -/
theorem length_packets {done entries rest : List SectionEntry}
    (h : sec.entries = done ++ (entries ++ rest)) :
    (sec.packets order done entries).length = entries.countP SectionEntry.isPacket := by
  induction entries generalizing done with
  | nil => rfl
  | cons entry entries ih =>
    have hhead := isSome_yields h (stateAfter order done)
    have htail : (sec.packets order (done ++ [entry]) entries).length =
        entries.countP SectionEntry.isPacket := ih (by rw [h]; simp)
    rw [packets, ← addTo_stateAfter] at htail
    rw [packets, Framing.outputs, List.length_append, htail, List.countP_cons, ← hhead]
    cases entry.yields (interfaceBlocks sec.others.blocks) (stateAfter order done) with
    | none => simp
    | some packet => simp [Nat.add_comm]

/-- A Simple Packet Block is read as one packet, and its packet holds the bytes that the block
keeps exactly when these are the whole packet or need no padding. -/
theorem simple_packet_iff (sec : SnapSection) {before after : List SectionEntry}
    {block : SimplePacketBlock} (h : sec.entries = before ++ .simple block :: after)
    (order : ByteOrder) {header : Bytes} (hheader : blockLength (bom order ++ header) < 2 ^ 32)
    (rest : Bytes) :
    ∃ earlier later, ∃ packet : PcapPacket,
      (readPcapng (sec.image order header ++ rest)).items = earlier ++ packet :: later ∧
      earlier.length = before.countP SectionEntry.isPacket ∧
      packet.originalLength = block.originalLength ∧
      ((packet.data = block.data ∧
        packet.capturedLength = min block.originalLength sec.iface.snapLength) ↔
        block.originalLength ≤ sec.iface.snapLength ∨ sec.iface.snapLength % 4 = 0) := by
  have hfits := sec.fits block (by rw [h]; simp)
  have hmin := minBlockSize_le_blockLength (bom order ++ header)
  have hlen : minBlockSize ≤ (sec.image order header ++ rest).length := by
    rw [image, List.append_assoc, List.length_append, length_blockWireIn]
    omega
  have hcount : (sec.packets order [] before).length = before.countP SectionEntry.isPacket :=
    length_packets h
  obtain ⟨state, hrun⟩ := sec.run_image true hheader rest
  have hsplit : sec.packets order [] sec.entries = sec.packets order [] before ++
      block.read (stateAfter order before).interfaces ::
        sec.packets order (before ++ [.simple block]) after := by
    rw [h, packets, Framing.outputs_append, foldl_addTo, Framing.outputs, addTo_stateAfter]
    rfl
  refine ⟨_, sec.packets order (before ++ [.simple block]) after ++
    (pcapngFraming.run true state rest).items, block.read (stateAfter order before).interfaces,
    ?_, hcount, rfl, SimplePacketBlock.read_eq_kept_iff hfits _⟩
  rw [readPcapng, readPcapngMode_eq_run true hlen, hrun, Yielded.items_prepend, hsplit,
    List.append_assoc, List.cons_append]

theorem fits_clippedInterface {n : Nat} (hlt : n < 9) :
    ∀ block ∈ [Block.interface ⟨1, n, [], false⟩], block.Fits := by
  intro block hblock
  obtain rfl := List.mem_singleton.mp hblock
  refine ⟨⟨by simp, ?_, by simp⟩, fun order => ?_⟩
  · dsimp only
    omega
  · rw [blockLength, length_padded]
    simp [Block.body, InterfaceBlock.body, optionsWire, fill]

theorem fits_clippedPacket (data : Bytes) (hlt : data.length < 9) :
    SimplePacketBlock.Fits data.length ⟨9, data⟩ := by
  refine ⟨by simp, ?_, ?_⟩
  · rw [blockLength, length_padded]
    have hpad := fill_lt 4 data.length
    dsimp only
    omega
  · dsimp only
    omega

/-- An interface and, as far as its snap length lets it, a packet of nine bytes. -/
def clipped (data : Bytes) (hpos : 0 < data.length) (hlt : data.length < 9) : SnapSection where
  entries := [.other (.interface ⟨1, data.length, [], false⟩), .simple ⟨9, data⟩]
  others := {
    blocks := [.interface ⟨1, data.length, [], false⟩]
    fits := fits_clippedInterface hlt
    declared := by
      intro before packet after h
      rcases before with _ | ⟨_, before⟩
      · cases h
      · simp at h }
  blocks := rfl
  iface := ⟨1, data.length, [], false⟩
  first := rfl
  snapLength := hpos
  fits := by
    intro block hblock
    have hsimple : block = ⟨9, data⟩ := by simpa using hblock
    subst hsimple
    exact fits_clippedPacket data hlt

/-- A snap length of eight needs no padding. -/
theorem simple_packet_iff_eight : ∃ earlier later, ∃ packet : PcapPacket,
    (readPcapng ((clipped [1, 2, 3, 4, 5, 6, 7, 8] (by decide) (by decide)).image .big (zeros 12) ++
      [])).items = earlier ++ packet :: later ∧ packet.data = [1, 2, 3, 4, 5, 6, 7, 8] ∧
      packet.capturedLength = 8 := by
  have hentries : (clipped [1, 2, 3, 4, 5, 6, 7, 8] (by decide) (by decide)).entries =
      [.other (.interface ⟨1, 8, [], false⟩)] ++ .simple ⟨9, [1, 2, 3, 4, 5, 6, 7, 8]⟩ :: [] := rfl
  have hheader : blockLength (bom .big ++ zeros 12) < 2 ^ 32 := by decide +kernel
  obtain ⟨earlier, later, packet, hitems, -, -, hiff⟩ :=
    simple_packet_iff _ hentries .big hheader []
  obtain ⟨hdata, hcaptured⟩ := hiff.mpr (.inr rfl)
  exact ⟨earlier, later, packet, hitems, hdata, hcaptured⟩

/-- Behind five bytes of nine, the padding is read as packet data. -/
theorem simple_packet_padding :
    readPcapng ((clipped [1, 2, 3, 4, 5] (by decide) (by decide)).image .big (zeros 12)) =
      ⟨[⟨0, 8, 9, 1, [1, 2, 3, 4, 5, 0, 0, 0]⟩], none⟩ := by
  decide +kernel

end SnapSection

end Rtpkit

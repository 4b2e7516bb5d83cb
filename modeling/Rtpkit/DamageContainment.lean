import Rtpkit.FramingUnits
import Rtpkit.PcapngWalk
import Rtpkit.RtcpConcat

namespace Rtpkit

open Outcome Chunk

section Rtcp

/-- An RTCP packet is all there by its length field, whatever else it says. -/
def WholePacket (u : Bytes) : Prop := headerSize ≤ u.length ∧ u.length = (halfAt u 2 + 1) * 4

instance (u : Bytes) : Decidable (WholePacket u) := inferInstanceAs (Decidable (_ ∧ _))

theorem lengthWords_of_readHeader {u : Bytes} {hdr : RtcpHeader} (hroom : headerSize ≤ u.length)
    (h : readHeader u 0 = .ok hdr) : hdr.lengthWords = halfAt u 2 := by
  simp only [headerSize] at hroom
  obtain ⟨_, -, h⟩ := bind_eq_ok.mp h
  obtain ⟨_, -, h⟩ := bind_eq_ok.mp h
  obtain ⟨lengthWords, hwords, h⟩ := bind_eq_ok.mp h
  rw [unpackFrom_halfAt (by omega)] at hwords
  cases hwords
  rw [← pure_eq_ok.mp h]

theorem WholePacket.whole {u : Bytes} (h : WholePacket u) : rtcpFraming.Whole () u := by
  obtain ⟨hroom, hlen⟩ := h
  obtain ⟨hdr, hhdr⟩ := exists_readHeader (show 0 + headerSize ≤ u.length by omega)
  have hsize : hdr.packetLen = u.length := by
    rw [RtcpHeader.packetLen, lengthWords_of_readHeader hroom hhdr, ← hlen]
  obtain ⟨item, hitem, -⟩ := parseBody_modes hdr (slice u headerSize u.length)
  exact ⟨(), _, item, rtcpHead_eq_unit.mpr ⟨hdr, hroom, hhdr, hsize, le_rfl, hitem, rfl⟩⟩

/-- By itself a whole packet gives at most one packet in lenient mode, and strict mode gives the
same or refuses it. -/
theorem WholePacket.exists_item {u : Bytes} (h : WholePacket u) :
    ∃ item : Option RtcpPacket, parseRtcpLenient u = .ok item.toList ∧
      (parseRtcp u = .ok item.toList ∨ ∃ e, parseRtcp u = .error e) := by
  obtain ⟨_, objection, item, hhead⟩ := h.whole
  have hone : ∀ strict, (strict = true → objection = none) →
      rtcpFraming.run strict () u = ⟨item.toList, none⟩ := by
    intro strict hquiet
    rw [Framing.run_next hhead hquiet, List.drop_length, Framing.run_nil, Yielded.prepend,
      List.append_nil]
  refine ⟨item, ?_, ?_⟩
  · rw [parseRtcpLenient, parseCompound_eq_run false h.1, hone false (by simp)]
    rfl
  · rw [parseRtcp, parseCompound_eq_run true h.1]
    cases objection with
    | none => exact .inl (by rw [hone true fun _ => rfl]; rfl)
    | some e => exact .inr ⟨e, by rw [Framing.run_objection hhead]; rfl⟩

/-- A compound of whole packets is parsed packet by packet in either mode, so that in lenient mode
a malformed packet damages none of the others. -/
theorem parse_compound_traverses {units : List Bytes} (hne : units ≠ [])
    (h : ∀ u ∈ units, WholePacket u) :
    parseRtcp units.flatten = List.flatten <$> units.mapM parseRtcp ∧
      parseRtcpLenient units.flatten = List.flatten <$> units.mapM parseRtcpLenient ∧
      ∀ u ∈ units, ∃ item : Option RtcpPacket, parseRtcpLenient u = .ok item.toList ∧
        (parseRtcp u = .ok item.toList ∨ ∃ e, parseRtcp u = .error e) := by
  have hlen : headerSize ≤ units.flatten.length := by
    obtain ⟨u, hu⟩ := List.exists_mem_of_ne_nil units hne
    have hle := (List.sublist_flatten_of_mem hu).length_le
    have hroom := (h u hu).1
    omega
  have htraverse : ∀ strict, parseCompound strict units.flatten =
      List.flatten <$> units.mapM (parseCompound strict) := by
    intro strict
    rw [parseCompound_eq_run strict hlen]
    exact Framing.toExcept_run_flatten (fun u hu => (h u hu).whole)
      fun u hu => parseCompound_eq_run strict (h u hu).1
  exact ⟨htraverse true, htraverse false, fun u hu => (h u hu).exists_item⟩

/-- Of three packets the middle one, of version 0, is refused in strict mode. -/
theorem parse_compound_traverses_version :
    parseRtcp [[128, 203, 0, 0], [1, 203, 0, 1, 0, 0, 0, 9], [128, 203, 0, 0]].flatten =
        .error (.rtcpInvalidVersion 0) ∧
      (∃ item : Option RtcpPacket, parseRtcpLenient [1, 203, 0, 1, 0, 0, 0, 9] = .ok item.toList) ∧
      parseRtcpLenient [[128, 203, 0, 0], [1, 203, 0, 1, 0, 0, 0, 9], [128, 203, 0, 0]].flatten =
        List.flatten <$> [[128, 203, 0, 0], [1, 203, 0, 1, 0, 0, 0, 9], [128, 203, 0, 0]].mapM
          parseRtcpLenient := by
  have hwhole : ∀ u ∈ ([[128, 203, 0, 0], [1, 203, 0, 1, 0, 0, 0, 9], [128, 203, 0, 0]] :
      List Bytes), WholePacket u := by decide
  obtain ⟨hstrict, hlenient, hitems⟩ := parse_compound_traverses (by simp) hwhole
  refine ⟨hstrict.trans (by decide +kernel), ?_, hlenient⟩
  obtain ⟨item, hitem, -⟩ := hitems [1, 203, 0, 1, 0, 0, 0, 9] (by simp)
  exact ⟨item, hitem⟩

end Rtcp

section Pcapng

/-- The units that a lenient reader has visited stand in front of where it is. -/
theorem exists_passes_of_visits {start state : PcapngState} {data : Bytes} {off : Nat}
    (h : pcapngFraming.Visits false start data state off) :
    ∃ items, pcapngFraming.Passes start (data.take off) items state := by
  induction h with
  | start => exact ⟨[], .done start⟩
  | @next s off size after objection item earlier head quiet ih =>
    obtain ⟨items, hpasses⟩ := ih
    have hsize := pcapngFraming.progress head
    have hlen : ((data.drop off).take size).length = size := by
      rw [List.length_take]
      omega
    have hself := pcapngFraming.stable head []
    rw [List.append_nil] at hself
    rw [List.take_add]
    exact ⟨_, hpasses.concat (by rw [hlen]; exact hself)⟩

/-- A block that begins no section and describes no interface: whatever it holds, the reader goes
on after it as if it had not been there. -/
structure CarriesNoContext (order : ByteOrder) (block : Bytes) : Prop where
  room : minBlockSize ≤ block.length
  length : wordAt order block 4 = block.length
  noSection : ¬SectionAt block 0
  noInterface : wordAt order block 0 ≠ idbType

instance (order : ByteOrder) (block : Bytes) : Decidable (CarriesNoContext order block) :=
  decidable_of_iff (minBlockSize ≤ block.length ∧ wordAt order block 4 = block.length ∧
      ¬SectionAt block 0 ∧ wordAt order block 0 ≠ idbType)
    ⟨fun h => ⟨h.1, h.2.1, h.2.2.1, h.2.2.2⟩, fun h => ⟨h.1, h.2, h.3, h.4⟩⟩

theorem interfaces_of_parseBlock {hdr : BlockHeader} {body : Bytes} {interfaces : List Interface}
    {packet : Option PcapPacket} (htype : hdr.blockType ≠ idbType)
    (h : parseBlock hdr body = .ok (interfaces, packet)) : interfaces = hdr.interfaces := by
  rw [parseBlock, if_neg htype] at h
  split at h
  next =>
    obtain ⟨_, -, h⟩ := bind_eq_ok.mp h
    exact (congrArg Prod.fst (pure_eq_ok.mp h)).symm
  split at h
  next =>
    obtain ⟨_, -, h⟩ := bind_eq_ok.mp h
    exact (congrArg Prod.fst (pure_eq_ok.mp h)).symm
  next => exact (congrArg Prod.fst (pure_eq_ok.mp h)).symm

theorem head_of_carriesNoContext {state : PcapngState} {order : ByteOrder} {block : Bytes}
    (h : CarriesNoContext order block) (horder : state.order = some order) :
    ∃ objection item, pcapngFraming.head state block =
      .unit block.length state objection item := by
  have hroom := h.room
  simp only [minBlockSize, blockHeaderSize, blockTrailerSize] at hroom
  have hhdr : readBlockHeader state block 0 =
      .ok ⟨order, state.interfaces, wordAt order block 0, wordAt order block 4⟩ := by
    rw [readBlockHeader, startSection_of_not_sectionAt h.noSection, bind_ok, horder]
    dsimp only
    rw [unpackIn_I_eq_ok.mpr ⟨by omega, rfl⟩, bind_ok, unpackIn_I_eq_ok.mpr ⟨by omega, rfl⟩, bind_ok]
    rfl
  obtain ⟨stateOrder, interfaces⟩ := state
  obtain rfl : stateOrder = some order := horder
  have hresult : ∀ body, ∃ objection item, blockResult
      ⟨order, interfaces, wordAt order block 0, wordAt order block 4⟩ body =
        (⟨some order, interfaces⟩, objection, item) := by
    intro body
    unfold blockResult
    split
    next interfaces' packet hblock =>
      obtain rfl : interfaces' = interfaces := interfaces_of_parseBlock h.noInterface hblock
      exact ⟨none, packet, rfl⟩
    next e _ => exact ⟨some e, none, rfl⟩
  obtain ⟨objection, item, hblock⟩ :=
    hresult (slice block blockHeaderSize (block.length - blockTrailerSize))
  exact ⟨objection, item, pcapngHead_eq_unit.mpr ⟨_, h.room, hhdr, h.length, h.room, le_rfl, hblock⟩⟩

theorem BlockAt.minBlockSize_le {data : Bytes} {order : ByteOrder} {off : Nat}
    (h : BlockAt data (some order) off) : minBlockSize ≤ off := by
  cases h with
  | next earlier room known size fits => omega

/-- In lenient mode a block that carries no context has no effect but its own packet, if it has
one: wherever the reader comes to it, taking the block out of the file changes nothing else. -/
theorem readPcapngLenient_block_contained {order : ByteOrder} {a block : Bytes} (b : Bytes)
    (hat : BlockAt (a ++ block ++ b) (some order) a.length) (hblock : CarriesNoContext order block) :
    ∃ before own after, own.length ≤ 1 ∧ readPcapngLenient a = ⟨before, none⟩ ∧
      (readPcapngLenient (a ++ block ++ b)).items = before ++ own ++ after ∧
      (readPcapngLenient (a ++ b)).items = before ++ after ∧
      (readPcapngLenient (a ++ block ++ b)).failure = (readPcapngLenient (a ++ b)).failure := by
  obtain ⟨state, hvisits, horder⟩ := visits_of_blockAt hat
  obtain ⟨before, hpasses⟩ := exists_passes_of_visits hvisits
  rw [List.append_assoc, List.take_left] at hpasses
  obtain ⟨objection, item, hhead⟩ := head_of_carriesNoContext hblock horder
  have hroom := hat.minBlockSize_le
  have hrun : ∀ rest, readPcapngLenient (a ++ rest) =
      (pcapngFraming.run false state rest).prepend before := by
    intro rest
    rw [readPcapngLenient, readPcapngMode_eq_run false (by rw [List.length_append]; omega)]
    exact hpasses.run_append rest
  refine ⟨before, item.toList, (pcapngFraming.run false state b).items, ?_, ?_, ?_, ?_, ?_⟩
  · cases item with
    | none => exact Nat.zero_le 1
    | some packet => exact le_rfl
  · have hfront := hrun []
    rw [List.append_nil, Framing.run_nil, Yielded.prepend, List.append_nil] at hfront
    exact hfront
  · rw [List.append_assoc, hrun, Framing.run_next (Framing.head_append hhead b) (by simp),
      List.drop_left, Yielded.prepend_prepend]
    rfl
  · rw [hrun]
    rfl
  · rw [List.append_assoc, hrun, hrun, Framing.run_next (Framing.head_append hhead b) (by simp),
      List.drop_left]
    rfl

/-- A section with one interface. -/
def oneInterface : Bytes :=
  sectionHeader ++ [1, 0, 0, 0, 20, 0, 0, 0, 1, 0, 0, 0, 0, 0, 0, 0, 20, 0, 0, 0]

/-- An Enhanced Packet Block with a packet of one byte. -/
def oneBytePacket (byte : UInt8) : Bytes :=
  [6, 0, 0, 0, 36, 0, 0, 0, 0, 0, 0, 0, 0, 0, 0, 0, 0, 0, 0, 0, 1, 0, 0, 0, 1, 0, 0, 0,
    byte, 0, 0, 0, 36, 0, 0, 0]

/-- The second of three packets is taken out. -/
theorem readPcapngLenient_block_contained_second :
    ∃ before own after : List PcapPacket, before.map PcapPacket.data = [[1]] ∧
      own.map PcapPacket.data = [[2]] ∧ after.map PcapPacket.data = [[3]] ∧
      (readPcapngLenient (oneInterface ++ oneBytePacket 1 ++ oneBytePacket 2 ++
        oneBytePacket 3)).items = before ++ own ++ after ∧
      (readPcapngLenient (oneInterface ++ oneBytePacket 1 ++ oneBytePacket 3)).items =
        before ++ after := by
  have hsection : BlockAt (oneInterface ++ oneBytePacket 1 ++ oneBytePacket 2 ++ oneBytePacket 3)
      (some .little) 28 :=
    .next .start (by decide +kernel) (by decide +kernel) (by decide +kernel) (by decide +kernel)
  have hinterface : BlockAt (oneInterface ++ oneBytePacket 1 ++ oneBytePacket 2 ++ oneBytePacket 3)
      (some .little) 48 :=
    .next hsection (by decide +kernel) (by decide +kernel) (by decide +kernel) (by decide +kernel)
  have hat : BlockAt (oneInterface ++ oneBytePacket 1 ++ oneBytePacket 2 ++ oneBytePacket 3)
      (some .little) (oneInterface ++ oneBytePacket 1).length :=
    .next hinterface (by decide +kernel) (by decide +kernel) (by decide +kernel) (by decide +kernel)
  obtain ⟨before, own, after, -, hfront, hwith, hwithout, -⟩ :=
    readPcapngLenient_block_contained _ hat (by decide +kernel)
  have hbefore : before.map PcapPacket.data = [[1]] := by
    have hitems := congrArg (fun y => y.items.map PcapPacket.data) hfront
    exact hitems.symm.trans (by decide +kernel)
  have hafter : (before ++ after).map PcapPacket.data = [[1], [3]] := by
    rw [← hwithout]
    decide +kernel
  have hall : (before ++ own ++ after).map PcapPacket.data = [[1]] ++ [[2]] ++ [[3]] := by
    rw [← hwith]
    decide +kernel
  rw [List.map_append, hbefore] at hafter
  have hlast : after.map PcapPacket.data = [[3]] := List.append_cancel_left hafter
  rw [List.map_append, List.map_append, hbefore, hlast] at hall
  exact ⟨before, own, after, hbefore, List.append_cancel_left (List.append_cancel_right hall),
    hlast, hwith, hwithout⟩

end Pcapng

end Rtpkit

import Rtpkit.PcapngFields
import Rtpkit.PcapngReadBack
import Mathlib.Data.List.ReduceOption

namespace Rtpkit

open Outcome Chunk

/-- A block that the lenient loop gets through, with the packet it yields for it. -/
structure SeenBlock where
  order : ByteOrder
  blockType : Nat
  body : Bytes
  packet : Option PcapPacket
  deriving DecidableEq, Repr

/-- The blocks in file order, up to where lenient mode stops. -/
def seenBlocks (state : PcapngState) (rest : Bytes) : List SeenBlock :=
  if rest.length < minBlockSize then []
  else
    match readBlockHeader state rest 0 with
    | .error _ => []
    | .ok hdr =>
      if _h : hdr.blockTotalLength < minBlockSize ∨ rest.length < hdr.blockTotalLength then []
      else
        let body := slice rest blockHeaderSize (hdr.blockTotalLength - blockTrailerSize)
        let result := blockResult hdr body
        ⟨hdr.order, hdr.blockType, body, result.2.2⟩ ::
          seenBlocks result.1 (rest.drop hdr.blockTotalLength)
termination_by rest.length
decreasing_by
  simp only [minBlockSize, blockHeaderSize, blockTrailerSize] at _h
  rw [List.length_drop]
  omega

def lenientBlocks (data : Bytes) : List SeenBlock :=
  seenBlocks { order := none, interfaces := [] } data

namespace SeenBlock

variable (b : SeenBlock)

def interfaceId : Nat := wordAt b.order b.body 0

def ticks : Nat := wordAt b.order b.body 4 <<< 32 ||| wordAt b.order b.body 8

def capturedLength : Nat := wordAt b.order b.body 12

end SeenBlock

/-- The Interface Description Blocks of the section so far; a malformed one describes nothing. -/
def describe (described : List (Option Interface)) (b : SeenBlock) : List (Option Interface) :=
  if b.blockType = shbType then []
  else if b.blockType = idbType then described ++ [(parseIdb b.body b.order).toOption]
  else described

def describedBy (blocks : List SeenBlock) : List (Option Interface) := blocks.foldl describe []

/-- The packet of a block is the one that the interface of its number took. -/
def RightlyLabelled (described : List (Option Interface)) (b : SeenBlock) : Prop :=
  ∀ packet, b.packet = some packet → ∃ iface, described[b.interfaceId]? = some (some iface) ∧
    packet.linkType = iface.linkType ∧ packet.timestamp = (b.ticks : ℚ) / iface.tsResolution

/-- What the input must be like for the block to be labelled rightly: its data is cut off, too few
interfaces are well formed, none of those up to its number is malformed, or the one of its number
looks like the one that the malformed ones put in its place. -/
def KeepsNumber (described : List (Option Interface)) (b : SeenBlock) : Prop :=
  b.body.length < 20 + b.capturedLength ∨
  described.reduceOption.length ≤ b.interfaceId ∨
  none ∉ described.take (b.interfaceId + 1) ∨
  ∃ iface used, described[b.interfaceId]? = some (some iface) ∧
    described.reduceOption[b.interfaceId]? = some used ∧ iface.linkType = used.linkType ∧
    (b.ticks = 0 ∨ iface.tsResolution = used.tsResolution)

section Head

variable {state : PcapngState} {rest : Bytes}

theorem seenBlocks_unit {size : Nat} {after : PcapngState} {objection : Option Error}
    {item : Option PcapPacket} (h : pcapngHead state rest = .unit size after objection item) :
    ∃ hdr body, readBlockHeader state rest 0 = .ok hdr ∧
      blockResult hdr body = (after, objection, item) ∧
      seenBlocks state rest =
        ⟨hdr.order, hdr.blockType, body, item⟩ :: seenBlocks after (rest.drop size) := by
  obtain ⟨hdr, hroom, hhdr, rfl, hmin, hle, hresult⟩ := pcapngHead_eq_unit.mp h
  refine ⟨hdr, _, hhdr, hresult, ?_⟩
  rw [seenBlocks, if_neg (by omega), hhdr]
  dsimp only
  rw [dif_neg (by omega), hresult]

theorem seenBlocks_eq_nil
    (h : ∀ size after objection item, pcapngHead state rest ≠ .unit size after objection item) :
    seenBlocks state rest = [] := by
  by_contra hne
  unfold seenBlocks at hne
  by_cases hroom : rest.length < minBlockSize
  · exact hne (if_pos hroom)
  rw [if_neg hroom] at hne
  cases hhdr : readBlockHeader state rest 0 with
  | error e =>
    rw [hhdr] at hne
    exact hne rfl
  | ok hdr =>
    rw [hhdr] at hne
    dsimp only at hne
    by_cases hlen : hdr.blockTotalLength < minBlockSize ∨ rest.length < hdr.blockTotalLength
    · exact hne (dif_pos hlen)
    · exact h _ _ _ _ (pcapngHead_eq_unit.mpr
        ⟨hdr, by omega, hhdr, rfl, by omega, by omega, rfl⟩)

/-- The first block that is seen, and those after it. -/
theorem seenBlocks_eq_cons {first : SeenBlock} {more : List SeenBlock}
    (h : seenBlocks state rest = first :: more) :
    ∃ hdr body size, readBlockHeader state rest 0 = .ok hdr ∧
      first = ⟨hdr.order, hdr.blockType, body, (blockResult hdr body).2.2⟩ ∧
      more = seenBlocks (blockResult hdr body).1 (rest.drop size) := by
  by_cases hunit : ∃ size after objection item,
      pcapngHead state rest = .unit size after objection item
  · obtain ⟨size, after, objection, item, hhead⟩ := hunit
    obtain ⟨hdr, body, hhdr, hresult, hseen⟩ := seenBlocks_unit hhead
    obtain ⟨rfl, rfl⟩ := List.cons.inj (h.symm.trans hseen)
    exact ⟨hdr, body, size, hhdr, by rw [hresult], by rw [hresult]⟩
  · have hnone : seenBlocks state rest = [] := seenBlocks_eq_nil
      fun size after objection item h => hunit ⟨size, after, objection, item, h⟩
    rw [hnone] at h
    cases h

end Head

/-- What lenient mode yields is what it yields for the blocks that it gets through. -/
theorem items_run_lenient (state : PcapngState) (rest : Bytes) :
    (pcapngFraming.run false state rest).items =
      (seenBlocks state rest).filterMap SeenBlock.packet := by
  induction hn : rest.length using Nat.strongRecOn generalizing state rest with
  | _ n ih =>
    by_cases hunit : ∃ size after objection item,
        pcapngFraming.head state rest = .unit size after objection item
    · obtain ⟨size, after, objection, item, hhead⟩ := hunit
      have hsize := pcapngFraming.progress hhead
      obtain ⟨hdr, body, -, -, hseen⟩ := seenBlocks_unit hhead
      rw [Framing.run_next hhead (by simp), Yielded.items_prepend, hseen,
        ih _ (by rw [List.length_drop]; omega) after (rest.drop size) rfl]
      cases item with
      | none => rfl
      | some packet => rfl
    · have hnone : ∀ size after objection item,
          pcapngFraming.head state rest ≠ .unit size after objection item :=
        fun size after objection item h => hunit ⟨size, after, objection, item, h⟩
      rw [Framing.run_items_eq_nil hnone, seenBlocks_eq_nil hnone, List.filterMap_nil]

theorem items_readPcapngLenient (data : Bytes) :
    (readPcapngLenient data).items = (lenientBlocks data).filterMap SeenBlock.packet := by
  by_cases hlen : minBlockSize ≤ data.length
  · rw [readPcapngLenient, readPcapngMode_eq_run false hlen, items_run_lenient, lenientBlocks]
  · rw [readPcapngLenient, readPcapngMode, if_pos (by omega), lenientBlocks, seenBlocks,
      if_pos (by omega)]
    rfl

/-- A block is a Section Header Block exactly when its first bytes are the magic ones. -/
theorem blockType_eq_shbType_iff {order : ByteOrder} {rest : Bytes} {blockType : Nat}
    (h : unpackIn order .I rest 0 = .ok blockType) :
    blockType = shbType ↔ slice rest 0 4 = shbMagic := by
  obtain ⟨hle, htype⟩ := unpackIn_eq_ok.mp h
  have hlen : (order.arrange (slice rest 0 4)).length = Fmt.size .I := by
    rw [ByteOrder.length_arrange, length_slice]
    simp only [Fmt.size_I] at hle ⊢
    omega
  constructor
  · intro heq
    have hbytes := Fmt.wire_decode hlen
    rw [show BigEndian.decode (order.arrange (slice rest 0 4)) = shbType from
      htype.symm.trans heq] at hbytes
    rw [← wireIn_shbType order, Fmt.wireIn, hbytes, ByteOrder.arrange_arrange]
  · intro hmagic
    rw [htype, Fmt.size_I, Nat.zero_add, hmagic]
    cases order with
    | big => rfl
    | little => rfl

theorem readBlockHeader_interfaces {state : PcapngState} {rest : Bytes} {hdr : BlockHeader}
    (h : readBlockHeader state rest 0 = .ok hdr) :
    hdr.interfaces = if hdr.blockType = shbType then [] else state.interfaces := by
  obtain ⟨start, hstart, h⟩ := bind_eq_ok.mp h
  have hinterfaces : start.interfaces =
      if slice rest 0 4 = shbMagic then [] else state.interfaces := by
    unfold startSection at hstart
    by_cases hmagic : slice rest 0 4 = shbMagic
    · rw [if_pos hmagic] at hstart ⊢
      dsimp only at hstart
      split at hstart
      next => cases hstart; rfl
      split at hstart
      next => cases hstart; rfl
      next => cases hstart
    · rw [if_neg hmagic] at hstart ⊢
      cases hstart
      rfl
  cases horder : start.order with
  | none =>
    rw [horder] at h
    cases h
  | some order =>
    rw [horder] at h
    obtain ⟨blockType, htype, h⟩ := bind_eq_ok.mp h
    obtain ⟨blockTotalLength, -, h⟩ := bind_eq_ok.mp h
    obtain rfl := pure_eq_ok.mp h
    rw [hinterfaces]
    exact if_congr (blockType_eq_shbType_iff htype).symm rfl rfl

/-- The interfaces after a block are those before it and the one it describes, if any. -/
theorem blockResult_interfaces (hdr : BlockHeader) (body : Bytes) :
    (blockResult hdr body).1.interfaces =
      if hdr.blockType = idbType then hdr.interfaces ++ (parseIdb body hdr.order).toOption.toList
      else hdr.interfaces := by
  rw [blockResult, parseBlock]
  by_cases hidb : hdr.blockType = idbType
  · rw [if_pos hidb, if_pos hidb]
    cases parseIdb body hdr.order with
    | error e => exact (List.append_nil _).symm
    | ok iface => rfl
  rw [if_neg hidb, if_neg hidb]
  by_cases hepb : hdr.blockType = epbType
  · rw [if_pos hepb]
    cases parseEpb body hdr.order hdr.interfaces with
    | error e => rfl
    | ok packet => rfl
  rw [if_neg hepb]
  by_cases hspb : hdr.blockType = spbType
  · rw [if_pos hspb]
    cases parseSpb body hdr.order hdr.interfaces with
    | error e => rfl
    | ok packet => rfl
  · rw [if_neg hspb]
    rfl

theorem blockResult_packet {hdr : BlockHeader} (htype : hdr.blockType = epbType) (body : Bytes) :
    (blockResult hdr body).2.2 = (parseEpb body hdr.order hdr.interfaces).toOption := by
  rw [blockResult, parseBlock, if_neg (by rw [htype]; decide), if_pos htype]
  cases parseEpb body hdr.order hdr.interfaces with
  | error e => rfl
  | ok packet => rfl

/-- The table of the reader is what the well-formed interface blocks describe, and a block that
is read keeps it so. -/
theorem blockResult_describe {described : List (Option Interface)} {state : PcapngState}
    {rest : Bytes} {hdr : BlockHeader} (hstate : state.interfaces = described.reduceOption)
    (h : readBlockHeader state rest 0 = .ok hdr) (body : Bytes) (packet : Option PcapPacket) :
    (blockResult hdr body).1.interfaces =
      (describe described ⟨hdr.order, hdr.blockType, body, packet⟩).reduceOption := by
  rw [blockResult_interfaces, readBlockHeader_interfaces h, describe, hstate]
  dsimp only
  by_cases hshb : hdr.blockType = shbType
  · rw [if_pos hshb, if_pos hshb, if_neg (by rw [hshb]; decide)]
    rfl
  rw [if_neg hshb, if_neg hshb]
  by_cases hidb : hdr.blockType = idbType
  · rw [if_pos hidb, if_pos hidb, List.reduceOption_append]
    cases parseIdb body hdr.order with
    | error e => rfl
    | ok iface => rfl
  · rw [if_neg hidb, if_neg hidb]

/-- Every block that is seen is read with the interfaces described before it. -/
theorem packet_of_seen {described : List (Option Interface)} {state : PcapngState} {rest : Bytes}
    {before after : List SeenBlock} {b : SeenBlock}
    (hstate : state.interfaces = described.reduceOption)
    (h : seenBlocks state rest = before ++ b :: after) (htype : b.blockType = epbType) :
    b.packet =
      (parseEpb b.body b.order (before.foldl describe described).reduceOption).toOption := by
  induction before generalizing described state rest with
  | nil =>
    obtain ⟨hdr, body, size, hhdr, rfl, -⟩ := seenBlocks_eq_cons h
    have hinterfaces : hdr.interfaces = described.reduceOption := by
      rw [readBlockHeader_interfaces hhdr, if_neg (by rw [show hdr.blockType = epbType from htype]; decide),
        hstate]
    rw [List.foldl_nil, ← hinterfaces]
    exact blockResult_packet htype body
  | cons first before ih =>
    obtain ⟨hdr, body, size, hhdr, rfl, hmore⟩ := seenBlocks_eq_cons h
    exact ih (blockResult_describe hstate hhdr body _) hmore.symm

theorem packet_of_lenientBlocks {data : Bytes} {before after : List SeenBlock} {b : SeenBlock}
    (h : lenientBlocks data = before ++ b :: after) (htype : b.blockType = epbType) :
    b.packet = (parseEpb b.body b.order (describedBy before).reduceOption).toOption :=
  packet_of_seen rfl h htype

/-- Without a malformed one before, the well-formed ones keep their numbers. -/
theorem getElem?_reduceOption {α : Type} {xs : List (Option α)} {k : Nat}
    (h : none ∉ xs.take (k + 1)) : xs.reduceOption[k]? = xs[k]?.join := by
  induction xs generalizing k with
  | nil => rfl
  | cons x xs ih =>
    cases x with
    | none => simp at h
    | some a =>
      rw [List.reduceOption_cons_of_some]
      cases k with
      | zero => rfl
      | succ k => exact ih (by simpa using h)

theorem ticks_div_eq_iff {ticks r s : Nat} (hr : 0 < r) (hs : 0 < s) :
    (ticks : ℚ) / r = (ticks : ℚ) / s ↔ ticks = 0 ∨ r = s := by
  have hr' : (r : ℚ) ≠ 0 := by exact_mod_cast hr.ne'
  have hs' : (s : ℚ) ≠ 0 := by exact_mod_cast hs.ne'
  rw [div_eq_div_iff hr' hs', mul_eq_mul_left_iff, Nat.cast_inj, Nat.cast_eq_zero, or_comm,
    eq_comm (a := s)]

theorem describedBy_pos {blocks : List SeenBlock} {iface : Interface}
    (h : some iface ∈ describedBy blocks) : 0 < iface.tsResolution := by
  induction blocks using List.reverseRecOn with
  | nil => cases h
  | append_singleton blocks b ih =>
    rw [describedBy, List.foldl_append, List.foldl_cons, List.foldl_nil, describe] at h
    split at h
    next => cases h
    split at h
    next =>
      rcases List.mem_append.mp h with hmem | hnew
      · exact ih hmem
      · cases hparse : parseIdb b.body b.order with
        | error e =>
          rw [hparse] at hnew
          cases List.mem_singleton.mp hnew
        | ok found =>
          rw [hparse] at hnew
          cases List.mem_singleton.mp hnew
          exact parseIdb_pos hparse
    next => exact ih h

/-- A block without a packet is cut off or names no well-formed interface. -/
theorem keepsNumber_of_parseEpb_error {described : List (Option Interface)} {b : SeenBlock}
    {e : Error} (h : parseEpb b.body b.order described.reduceOption = .error e) :
    KeepsNumber described b := by
  by_cases hroom : 20 + b.capturedLength ≤ b.body.length
  · cases hused : described.reduceOption[b.interfaceId]? with
    | none => exact .inr (.inl (List.getElem?_eq_none_iff.mp hused))
    | some used =>
      have hok := parseEpb_eq_ok.mpr ⟨used, hroom, hused, rfl⟩
      cases h.symm.trans hok
  · exact .inl (Nat.lt_of_not_le hroom)

section Label

variable {described : List (Option Interface)} {b : SeenBlock}
  (hpos : ∀ iface, some iface ∈ described → 0 < iface.tsResolution)

include hpos

/-- A packet that was taken by the well-formed interface of its number is labelled rightly when
that interface stands at the number, or one that looks like it. -/
theorem rightlyLabelled_iff_of_used {used : Interface} {packet : PcapPacket}
    (hroom : 20 + b.capturedLength ≤ b.body.length)
    (hused : described.reduceOption[b.interfaceId]? = some used) (hpacket : b.packet = some packet)
    (hlink : packet.linkType = used.linkType)
    (htime : packet.timestamp = (b.ticks : ℚ) / used.tsResolution) :
    RightlyLabelled described b ↔ KeepsNumber described b := by
  have hposUsed := hpos used (List.reduceOption_mem_iff.mp (List.mem_of_getElem? hused))
  constructor
  · intro h
    obtain ⟨iface, hiface, hlink', htime'⟩ := h packet hpacket
    have hposIface := hpos iface (List.mem_of_getElem? hiface)
    rw [htime, ticks_div_eq_iff hposUsed hposIface, eq_comm (a := used.tsResolution)] at htime'
    exact .inr (.inr (.inr ⟨iface, used, hiface, hused, by omega, htime'⟩))
  · rintro h packet' hpacket'
    obtain rfl := Option.some.inj (hpacket.symm.trans hpacket')
    rcases h with hcut | hfew | hnone | ⟨iface, used', hiface, hused', hlink', htime'⟩
    · omega
    · rw [List.getElem?_eq_none hfew] at hused
      cases hused
    · rw [getElem?_reduceOption hnone] at hused
      exact ⟨used, Option.join_eq_some_iff.mp hused, hlink, htime⟩
    · obtain rfl := Option.some.inj (hused.symm.trans hused')
      have hposIface := hpos iface (List.mem_of_getElem? hiface)
      refine ⟨iface, hiface, by omega, ?_⟩
      rw [htime, ticks_div_eq_iff hposUsed hposIface, eq_comm (a := used.tsResolution)]
      exact htime'

theorem rightlyLabelled_iff_of_packet
    (hpacket : b.packet = (parseEpb b.body b.order described.reduceOption).toOption) :
    RightlyLabelled described b ↔ KeepsNumber described b := by
  cases hparse : parseEpb b.body b.order described.reduceOption with
  | error e =>
    rw [hparse] at hpacket
    refine iff_of_true ?_ (keepsNumber_of_parseEpb_error hparse)
    intro packet h
    cases hpacket.symm.trans h
  | ok packet =>
    obtain ⟨used, hroom, hused, rfl⟩ := parseEpb_eq_ok.mp hparse
    rw [hparse] at hpacket
    exact rightlyLabelled_iff_of_used hpos hroom hused hpacket rfl rfl

end Label

/-- Exactly which packets of lenient mode have the label of the interface that their block
names. -/
theorem rightlyLabelled_iff (data : Bytes) :
    (readPcapngLenient data).items = (lenientBlocks data).filterMap SeenBlock.packet ∧
      ∀ before b after, lenientBlocks data = before ++ b :: after → b.blockType = epbType →
        (RightlyLabelled (describedBy before) b ↔ KeepsNumber (describedBy before) b) := by
  refine ⟨items_readPcapngLenient data, ?_⟩
  intro before b after hsplit htype
  exact rightlyLabelled_iff_of_packet (fun iface => describedBy_pos)
    (packet_of_lenientBlocks hsplit htype)

/-- A malformed interface behind the one that a packet names does no harm. -/
theorem rightlyLabelled_iff_behind :
    RightlyLabelled [some ⟨113, defaultTsResol⟩, none]
      ⟨.little, epbType, zeros 20, some ⟨0, 0, 0, 113, []⟩⟩ := by
  obtain ⟨-, hiff⟩ := rightlyLabelled_iff (blockWire shbType shbBody ++
    (blockWire idbType (idbBody 113) ++ (blockWire idbType (zeros 4) ++
      blockWire epbType (zeros 20))))
  have h := hiff [⟨.little, shbType, shbBody, none⟩, ⟨.little, idbType, idbBody 113, none⟩,
    ⟨.little, idbType, zeros 4, none⟩] ⟨.little, epbType, zeros 20, some ⟨0, 0, 0, 113, []⟩⟩ []
    (by decide +kernel) rfl
  have hdescribed : describedBy [⟨.little, shbType, shbBody, none⟩,
      ⟨.little, idbType, idbBody 113, none⟩, ⟨.little, idbType, zeros 4, none⟩] =
      [some ⟨113, defaultTsResol⟩, none] := by
    decide +kernel
  rw [hdescribed] at h
  exact h.mpr (.inr (.inr (.inl (by decide +kernel))))

/-- A section with an interface block that is too short, one for link type 113, one for link
type 1, and a packet of interface 1. -/
def shortInterface : Bytes :=
  blockWire shbType shbBody ++ (blockWire idbType (zeros 4) ++
    (blockWire idbType (idbBody 113) ++ (blockWire idbType (idbBody 1) ++
      blockWire epbType (Fmt.wireIn .little .I 1 ++ zeros 16))))

/-- The packet gets the link type of the interface behind its own. -/
theorem shortInterface_mislabelled :
    (readPcapngLenient shortInterface).items = [⟨0, 0, 0, 1, []⟩] ∧
      ¬∀ before b after, lenientBlocks shortInterface = before ++ b :: after →
        b.blockType = epbType → RightlyLabelled (describedBy before) b := by
  refine ⟨by decide +kernel, ?_⟩
  intro h
  have hsplit : lenientBlocks shortInterface = (lenientBlocks shortInterface).take 4 ++
      [⟨.little, epbType, Fmt.wireIn .little .I 1 ++ zeros 16, some ⟨0, 0, 0, 1, []⟩⟩] := by
    decide +kernel
  have hnamed : (describedBy ((lenientBlocks shortInterface).take 4))[1]? =
      some (some ⟨113, defaultTsResol⟩) := by
    decide +kernel
  obtain ⟨iface, hiface, hlink, -⟩ := h _ _ _ hsplit rfl _ rfl
  cases hnamed.symm.trans hiface
  cases hlink

end Rtpkit

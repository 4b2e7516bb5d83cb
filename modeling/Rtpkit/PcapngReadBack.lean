import Rtpkit.PcapngImage

namespace Rtpkit

open Outcome Chunk Alignment

section Block

variable {state : PcapngState} {order : ByteOrder} {blockType : Nat} {body rest : Bytes}

theorem minBlockSize_le_blockLength (body : Bytes) : minBlockSize ≤ blockLength body := by
  simp only [minBlockSize, blockHeaderSize, blockTrailerSize, blockLength]
  omega

theorem startSection_blockWireIn (h : Fmt.wireIn order .I blockType ≠ shbMagic) :
    startSection state (blockWireIn order blockType body ++ rest) 0 = .ok state := by
  have hmagic : slice (blockWireIn order blockType body ++ rest) 0 (0 + 4) =
      Fmt.wireIn order .I blockType := by
    rw [blockWireIn, List.append_assoc, slice_append_left (by simp), slice_zero,
      List.take_of_length_le (by simp)]
  rw [startSection, hmagic, if_neg h]

/-- A written block is read as a block of its type with its padded body. -/
theorem pcapngHead_blockWireIn {interfaces : List Interface}
    (htype : Fmt.Fits .I blockType) (hlen : Fmt.Fits .I (blockLength body : Nat))
    (hstart : startSection state (blockWireIn order blockType body ++ rest) 0 =
      .ok { order := some order, interfaces := interfaces })
    {after : PcapngState} {item : Option PcapPacket}
    (hresult : blockResult ⟨order, interfaces, blockType, blockLength body⟩ (padded body) =
      (after, none, item)) :
    pcapngHead state (blockWireIn order blockType body ++ rest) =
      .unit (blockWireIn order blockType body).length after none item := by
  generalize hd : blockWireIn order blockType body ++ rest = d at hstart ⊢
  have hstands : StandsAt d 0 (blockWireIn order blockType body) := ⟨[], rest, hd.symm, rfl⟩
  have hle := hstands.le_length
  rw [length_blockWireIn, Nat.zero_add] at hle
  have hmin := minBlockSize_le_blockLength body
  rw [blockWireIn, standsAt_append, standsAt_append, standsAt_append] at hstands
  obtain ⟨htypeAt, hlenAt, hbodyAt, -⟩ := hstands
  simp only [Fmt.length_wireIn, Fmt.size_I, Nat.zero_add] at hlenAt hbodyAt
  have hbody : slice d blockHeaderSize (blockLength body - blockTrailerSize) = padded body := by
    have hslice := hbodyAt.slice_eq
    rwa [show 4 + 4 + (padded body).length = blockLength body - blockTrailerSize by
      simp only [blockLength, blockTrailerSize]; omega] at hslice
  rw [length_blockWireIn]
  refine pcapngHead_eq_unit.mpr ⟨⟨order, interfaces, blockType, blockLength body⟩,
    hmin.trans hle, ?_, rfl, hmin, hle, ?_⟩
  · rw [readBlockHeader, hstart, bind_ok]
    dsimp only
    rw [unpackIn_of_standsAt htype htypeAt, bind_ok, unpackIn_of_standsAt hlen hlenAt, bind_ok]
    rfl
  · rw [hbody, hresult]

end Block

/-- The interface that the reader makes of a written link type. -/
def readInterface (linkType : Int) : Interface where
  linkType := linkType.toNat
  tsResolution := defaultTsResol

theorem parseIfTsresol_nil (order : ByteOrder) :
    parseIfTsresol order [] = .ok defaultTsResol := by
  have hnone : iterOptions order [] 0 = .ok [] := by
    rw [iterOptions, dif_neg (by simp)]
    rfl
  rw [parseIfTsresol, hnone]
  rfl

theorem padded_of_aligned {body : Bytes} (h : fill 4 body.length = 0) : padded body = body := by
  rw [padded, h]
  exact List.append_nil body

theorem parseIdb_idbBody {linkType : Int} (h : Fmt.Fits .H linkType) :
    parseIdb (padded (idbBody linkType)) .little = .ok (readInterface linkType) := by
  have hlen := length_idbBody linkType
  have hstands : StandsAt (idbBody linkType) 0 (Fmt.wireIn .little .H linkType) :=
    (standsAt_append.mp (standsAt_self (idbBody linkType))).1
  have hoptions : slice (idbBody linkType) 8 8 = [] := by
    apply List.eq_nil_of_length_eq_zero
    rw [length_slice, hlen]
    rfl
  rw [padded_of_aligned (by rw [hlen]; rfl), parseIdb, require_pos (by omega), bind_ok,
    unpackIn_of_standsAt h hstands, bind_ok, hlen, hoptions, parseIfTsresol_nil]
  rfl

/-- The two words of a tick, put together again. -/
theorem words_toNat (tick : Int) :
    ((tick / 2 ^ 32 % 2 ^ 32).toNat <<< 32) ||| (tick % 2 ^ 32).toNat = (tick % 2 ^ 64).toNat := by
  have hlow : (tick % 2 ^ 32).toNat < 2 ^ 32 := by omega
  rw [← Nat.shiftLeft_add_eq_or_of_lt hlow, Nat.shiftLeft_eq]
  omega

section ParseEpb

variable {order : ByteOrder} {d data : Bytes} {ifaceId high low orig : Int}
  {interfaces : List Interface} {iface : Interface}

/-- The fields of an Enhanced Packet Block are read where they stand. -/
theorem parseEpb_of_standsAt (hid : Fmt.Fits .I ifaceId) (hhigh : Fmt.Fits .I high)
    (hlow : Fmt.Fits .I low) (hcap : Fmt.Fits .I (data.length : Nat)) (horig : Fmt.Fits .I orig)
    (h : StandsAt d 0 (Fmt.wireIn order .I ifaceId ++ (Fmt.wireIn order .I high ++
      (Fmt.wireIn order .I low ++ (Fmt.wireIn order .I data.length ++
        (Fmt.wireIn order .I orig ++ data))))))
    (hiface : interfaces[ifaceId.toNat]? = some iface) :
    parseEpb d order interfaces = .ok {
      timestamp := ((high.toNat <<< 32 ||| low.toNat : Nat) : ℚ) / iface.tsResolution
      capturedLength := data.length
      originalLength := orig
      linkType := iface.linkType
      data := data } := by
  simp only [standsAt_append, Fmt.length_wireIn, Fmt.size_I, Nat.zero_add, Nat.reduceAdd] at h
  obtain ⟨hidAt, hhighAt, hlowAt, hcapAt, horigAt, hdataAt⟩ := h
  have hle := hdataAt.le_length
  rw [parseEpb, require_pos (by omega), bind_ok, unpackIn_of_standsAt hid hidAt, bind_ok,
    unpackIn_of_standsAt hhigh hhighAt, bind_ok, unpackIn_of_standsAt hlow hlowAt, bind_ok,
    unpackIn_of_standsAt hcap hcapAt, bind_ok, unpackIn_of_standsAt horig horigAt, bind_ok]
  simp only [Int.toNat_natCast]
  rw [require_pos (by omega), bind_ok, hiface]
  simp only [hdataAt.slice_eq, Int.toNat_of_nonneg horig.1]
  rfl

end ParseEpb

theorem parseEpb_epbBody {ifaceId : Nat} {pkt : PcapPacket} {interfaces : List Interface}
    (hid : Fmt.Fits .I ifaceId) (hfits : pkt.FitsBlock) (hlink : 0 ≤ pkt.linkType)
    (hiface : interfaces[ifaceId]? = some (readInterface pkt.linkType)) :
    parseEpb (padded (epbBody ifaceId pkt)) .little interfaces = .ok pkt.requantised := by
  have hstands : StandsAt (padded (epbBody ifaceId pkt)) 0 (epbBody ifaceId pkt) :=
    ⟨[], zeros (fill 4 (epbBody ifaceId pkt).length), rfl, rfl⟩
  obtain ⟨hhigh, hlow⟩ := tick_words_fit pkt
  have hblock := hfits.block
  have hcap : Fmt.Fits .I (pkt.data.length : Nat) := Fmt.fits_I.mpr (by omega)
  have hticks : (((pkt.tick % 2 ^ 64).toNat : Nat) : ℚ) = ((pkt.tick % 2 ^ 64 : ℤ) : ℚ) := by
    have hnonneg : (((pkt.tick % 2 ^ 64).toNat : Nat) : ℤ) = pkt.tick % 2 ^ 64 := by omega
    exact_mod_cast congrArg (Int.cast (R := ℚ)) hnonneg
  rw [parseEpb_of_standsAt hid hhigh hlow hcap hfits.originalLength hstands hiface]
  simp only [words_toNat, hticks, readInterface, defaultTsResol, Int.toNat_of_nonneg hlink,
    PcapPacket.requantised]
  rfl

theorem blockResult_idb {hdr : BlockHeader} {body : Bytes} {iface : Interface}
    (htype : hdr.blockType = idbType) (h : parseIdb body hdr.order = .ok iface) :
    blockResult hdr body =
      ({ order := some hdr.order, interfaces := hdr.interfaces ++ [iface] }, none, none) := by
  have hparse : parseBlock hdr body = .ok (hdr.interfaces ++ [iface], none) := by
    rw [parseBlock, if_pos htype, h]
    rfl
  rw [blockResult, hparse]

theorem blockResult_epb {hdr : BlockHeader} {body : Bytes} {packet : PcapPacket}
    (htype : hdr.blockType = epbType) (h : parseEpb body hdr.order hdr.interfaces = .ok packet) :
    blockResult hdr body =
      ({ order := some hdr.order, interfaces := hdr.interfaces }, none, some packet) := by
  have hparse : parseBlock hdr body = .ok (hdr.interfaces, some packet) := by
    rw [parseBlock, htype, if_neg (by decide), if_pos rfl, h]
    rfl
  rw [blockResult, hparse]

theorem blockResult_spb {hdr : BlockHeader} {body : Bytes} {packet : PcapPacket}
    (htype : hdr.blockType = spbType) (h : parseSpb body hdr.order hdr.interfaces = .ok packet) :
    blockResult hdr body =
      ({ order := some hdr.order, interfaces := hdr.interfaces }, none, some packet) := by
  have hparse : parseBlock hdr body = .ok (hdr.interfaces, some packet) := by
    rw [parseBlock, htype, if_neg (by decide), if_neg (by decide), if_pos rfl, h]
    rfl
  rw [blockResult, hparse]

/-- What the state of the reader must be for the blocks after the section header. -/
def InLittleSection (state : PcapngState) : Prop := state.order = some .little

def bom : ByteOrder → Bytes
  | .big => bomBigEndian
  | .little => bomLittleEndian

theorem wireIn_shbType (order : ByteOrder) : Fmt.wireIn order .I shbType = shbMagic := by
  cases order with
  | big => decide +kernel
  | little => decide +kernel

theorem startSection_shbWire (state : PcapngState) (order : ByteOrder) (header rest : Bytes) :
    startSection state (blockWireIn order shbType (bom order ++ header) ++ rest) 0 =
      .ok { order := some order, interfaces := [] } := by
  generalize hd : blockWireIn order shbType (bom order ++ header) ++ rest = d
  have hstands : StandsAt d 0 (blockWireIn order shbType (bom order ++ header)) :=
    ⟨[], rest, hd.symm, rfl⟩
  simp only [blockWireIn, padded, standsAt_append, Fmt.length_wireIn, Fmt.size_I,
    Nat.zero_add] at hstands
  obtain ⟨htypeAt, -, ⟨⟨hbomAt, -⟩, -⟩, -⟩ := hstands
  have htype : slice d 0 (0 + 4) = shbMagic := by
    have hslice := htypeAt.slice_eq
    rwa [Fmt.length_wireIn, Fmt.size_I, wireIn_shbType] at hslice
  have hbom := hbomAt.slice_eq
  rw [startSection, if_pos htype]
  cases order with
  | big => exact if_pos hbom
  | little =>
    have hother : slice d (0 + 8) (0 + 12) ≠ bomBigEndian := by
      intro heq
      cases hbom.symm.trans heq
    exact (if_neg hother).trans (if_pos hbom)

/-- A Section Header Block sets the byte order, whatever stands behind its magic. -/
theorem pcapngHead_shbWire (state : PcapngState) {order : ByteOrder} {header : Bytes}
    (h : blockLength (bom order ++ header) < 2 ^ 32) (rest : Bytes) :
    pcapngHead state (blockWireIn order shbType (bom order ++ header) ++ rest) =
      .unit (blockWireIn order shbType (bom order ++ header)).length
        { order := some order, interfaces := [] } none none :=
  pcapngHead_blockWireIn (by decide) (Fmt.fits_I.mpr (by omega))
    (startSection_shbWire state order header rest) rfl

theorem pcapngHead_shb (state : PcapngState) (rest : Bytes) :
    pcapngHead state (blockWire shbType shbBody ++ rest) =
      .unit (blockWire shbType shbBody).length { order := some .little, interfaces := [] } none
        none :=
  pcapngHead_shbWire state (show blockLength (bom .little ++ _) < 2 ^ 32 by decide +kernel) rest

theorem pcapngHead_idb {state : PcapngState} (hstate : InLittleSection state) {linkType : Int}
    (h : Fmt.Fits .H linkType) (rest : Bytes) :
    pcapngHead state (idbWire linkType ++ rest) =
      .unit (idbWire linkType).length
        { order := state.order, interfaces := state.interfaces ++ [readInterface linkType] } none
        none := by
  obtain ⟨order, interfaces⟩ := state
  obtain rfl : order = some .little := hstate
  refine pcapngHead_blockWireIn (by decide) ?_ (startSection_blockWireIn (by decide)) ?_
  · rw [blockLength_idbBody]
    decide
  · exact blockResult_idb rfl (parseIdb_idbBody h)

theorem pcapngHead_epb {state : PcapngState} (hstate : InLittleSection state)
    {packets : List PcapPacket} {pkt : PcapPacket}
    (hid : Fmt.Fits .I (ifaceIndex packets pkt)) (hfits : pkt.Writable)
    (hiface : state.interfaces[ifaceIndex packets pkt]? = some (readInterface pkt.linkType))
    (rest : Bytes) :
    pcapngHead state (epbWire packets pkt ++ rest) =
      .unit (epbWire packets pkt).length state none (some pkt.requantised) := by
  obtain ⟨order, interfaces⟩ := state
  obtain rfl : order = some .little := hstate
  refine pcapngHead_blockWireIn (by decide) ?_ (startSection_blockWireIn (by decide)) ?_
  · rw [blockLength_epbBody, Fmt.fits_I]
    have hblock := hfits.block
    omega
  · exact blockResult_epb rfl (parseEpb_epbBody hid hfits.toFitsBlock hfits.linkType.1 hiface)

/-- The state of the reader after one more interface. -/
def addInterface (state : PcapngState) (linkType : Int) : PcapngState where
  order := state.order
  interfaces := state.interfaces ++ [readInterface linkType]

theorem foldl_addInterface (linkTypes : List Int) (state : PcapngState) :
    linkTypes.foldl addInterface state =
      { order := state.order, interfaces := state.interfaces ++ linkTypes.map readInterface } := by
  induction linkTypes generalizing state with
  | nil => simp
  | cons linkType linkTypes ih =>
    rw [List.foldl_cons, ih]
    simp [addInterface]

/-- The table that the reader rebuilds holds the link type of a packet at the number that the
writer gave it. -/
theorem getElem?_ifaceIndex {packets : List PcapPacket} {pkt : PcapPacket} (h : pkt ∈ packets) :
    ((internLinkTypes packets).keys.map readInterface)[ifaceIndex packets pkt]? =
      some (readInterface pkt.linkType) := by
  have hkey : pkt.linkType ∈ (internLinkTypes packets).keys :=
    mem_internLinkTypes.mpr ⟨pkt, h, rfl⟩
  rw [ifaceIndex, List.getElem?_map, List.getElem?_idxOf hkey]
  rfl

theorem minBlockSize_le_pcapngImage (packets : List PcapPacket) :
    minBlockSize ≤ (pcapngImage packets).length := by
  have hmin := minBlockSize_le_blockLength shbBody
  rw [pcapngImage, List.length_append, length_blockWire]
  omega

theorem run_shb (rest : Bytes) :
    pcapngFraming.run true { order := none, interfaces := [] } (blockWire shbType shbBody ++ rest) =
      pcapngFraming.run true { order := some .little, interfaces := [] } rest := by
  have hhead := pcapngHead_shb { order := none, interfaces := [] } rest
  rw [← pcapngFraming_head] at hhead
  rw [Framing.run_append_unit hhead, Option.toList_none, Yielded.prepend_nil]

theorem run_idbs {linkTypes : List Int} (h : ∀ linkType ∈ linkTypes, Fmt.Fits .H linkType)
    (rest : Bytes) :
    pcapngFraming.run true { order := some .little, interfaces := [] }
        ((linkTypes.map idbWire).flatten ++ rest) =
      pcapngFraming.run true
        { order := some .little, interfaces := linkTypes.map readInterface } rest := by
  have hstart : InLittleSection { order := some .little, interfaces := [] } := rfl
  have hrun : pcapngFraming.run true { order := some .little, interfaces := [] }
        ((linkTypes.map idbWire).flatten ++ rest) =
      (pcapngFraming.run true
        (linkTypes.foldl addInterface { order := some .little, interfaces := [] }) rest).prepend
        (linkTypes.filterMap fun _ => none) :=
    Framing.run_append_units InLittleSection addInterface
      (fun s hs linkType hmem rest => pcapngHead_idb hs (h linkType hmem) rest)
      (fun s hs _ _ => hs) true hstart rest
  rw [hrun, foldl_addInterface, List.nil_append, List.filterMap_none, Yielded.prepend_nil]

theorem run_epbs {packets : List PcapPacket} (h : ∀ pkt ∈ packets, pkt.Writable) :
    pcapngFraming.run true
        { order := some .little, interfaces := (internLinkTypes packets).keys.map readInterface }
        (packets.map (epbWire packets)).flatten =
      ⟨packets.map PcapPacket.requantised, none⟩ := by
  have hlink : ∀ pkt ∈ packets, Fmt.Fits .H pkt.linkType := fun pkt hpkt => (h pkt hpkt).linkType
  generalize hstate : PcapngState.mk (some .little)
    ((internLinkTypes packets).keys.map readInterface) = state
  have hlittle : InLittleSection state := hstate ▸ rfl
  have hfaces : (internLinkTypes packets).keys.map readInterface = state.interfaces :=
    congrArg PcapngState.interfaces hstate
  have hrun : pcapngFraming.run true state ((packets.map (epbWire packets)).flatten ++ []) =
      (pcapngFraming.run true (packets.foldl (fun s _ => s) state) []).prepend
        (packets.filterMap fun pkt => some pkt.requantised) := by
    refine Framing.run_append_units (· = state) (fun s _ => s) ?_ (fun s hs _ _ => hs) true rfl []
    rintro _ rfl pkt hpkt rest
    exact pcapngHead_epb hlittle (ifaceIndex_fits hlink hpkt) (h pkt hpkt)
      (hfaces ▸ getElem?_ifaceIndex hpkt) rest
  rw [List.append_nil, Framing.run_nil, List.filterMap_eq_map'] at hrun
  rw [hrun, Yielded.prepend, List.append_nil]

/-- Reading a written file back gives the packets with whole microseconds. -/
theorem readPcapng_pcapngImage {packets : List PcapPacket} (h : ∀ pkt ∈ packets, pkt.Writable) :
    readPcapng (pcapngImage packets) = ⟨packets.map PcapPacket.requantised, none⟩ := by
  have hlink := keys_fit_iff.mpr fun pkt hpkt => (h pkt hpkt).linkType
  rw [readPcapng, readPcapngMode_eq_run true (minBlockSize_le_pcapngImage packets), pcapngImage,
    run_shb, run_idbs hlink, run_epbs h]

end Rtpkit

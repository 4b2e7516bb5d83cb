import Rtpkit.CaptureRewrite
import Rtpkit.CaptureSafety

namespace Rtpkit

open Outcome Chunk

section Items

variable {data : Bytes} {P : PcapPacket → Prop}

/-- What holds of the packet of every record holds of all that a reader of a pcap file yields. -/
theorem forall_items_readPcapMode (strict : Bool)
    (h : ∀ format rest size objection pkt, readGlobalHeader data = .ok format →
      pcapHead format rest = .unit size () objection (some pkt) → P pkt) :
    ∀ pkt ∈ (readPcapMode strict data).items, P pkt := by
  cases hformat : readGlobalHeader data with
  | error e =>
    rw [readPcapMode_error strict hformat]
    exact fun pkt hpkt => absurd hpkt List.not_mem_nil
  | ok format =>
    rw [readPcapMode_eq_run strict hformat]
    apply Framing.forall_run_items
    intro s rest size after objection pkt hhead
    exact h format rest size objection pkt hformat hhead

/-- What holds of the packet of every block holds of all that a reader of a pcapng file yields. -/
theorem forall_items_readPcapngMode (strict : Bool)
    (h : ∀ state off size after objection pkt,
      pcapngFraming.Visits strict ⟨none, []⟩ data state off →
      pcapngHead state (data.drop off) = .unit size after objection (some pkt) → P pkt) :
    ∀ pkt ∈ (readPcapngMode strict data).items, P pkt := by
  by_cases hlen : minBlockSize ≤ data.length
  · rw [readPcapngMode_eq_run strict hlen]
    intro pkt hpkt
    obtain ⟨state, off, size, after, objection, hvisits, hhead, -⟩ := Framing.mem_run_items.mp hpkt
    exact h state off size after objection pkt hvisits hhead
  · rw [readPcapngMode, if_pos (by omega)]
    exact fun pkt hpkt => absurd hpkt List.not_mem_nil

end Items

section Interfaces

variable {P : Interface → Prop} {data : Bytes} {state : PcapngState} {off : Nat}

theorem forall_interfaces_of_blockResult {hdr : BlockHeader}
    (hidb : ∀ body order iface, parseIdb body order = .ok iface → P iface)
    (h : ∀ iface ∈ hdr.interfaces, P iface) (body : Bytes) :
    ∀ iface ∈ (blockResult hdr body).1.interfaces, P iface := by
  rw [blockResult_interfaces]
  split
  next =>
    intro iface hiface
    rcases List.mem_append.mp hiface with hbefore | hnew
    · exact h iface hbefore
    cases hparse : parseIdb body hdr.order with
    | error e =>
      rw [hparse] at hnew
      exact absurd hnew List.not_mem_nil
    | ok described =>
      rw [hparse] at hnew
      obtain rfl := List.mem_singleton.mp hnew
      exact hidb body hdr.order iface hparse
  next => exact h

theorem forall_interfaces_of_readBlockHeader {rest : Bytes} {hdr : BlockHeader}
    (h : ∀ iface ∈ state.interfaces, P iface) (hhdr : readBlockHeader state rest 0 = .ok hdr) :
    ∀ iface ∈ hdr.interfaces, P iface := by
  rw [readBlockHeader_interfaces hhdr]
  split
  next => exact fun _ hiface => absurd hiface List.not_mem_nil
  next => exact h

/-- What every description of an interface keeps to, the interfaces of a section keep to. -/
theorem forall_interfaces_of_visits {strict : Bool}
    (hidb : ∀ body order iface, parseIdb body order = .ok iface → P iface)
    (h : pcapngFraming.Visits strict ⟨none, []⟩ data state off) :
    ∀ iface ∈ state.interfaces, P iface := by
  induction h with
  | start => exact fun _ hiface => absurd hiface List.not_mem_nil
  | next earlier head quiet ih =>
    obtain ⟨hdr, -, hhdr, -, -, -, hresult⟩ := pcapngHead_eq_unit.mp head
    have hafter := congrArg Prod.fst hresult
    dsimp only at hafter
    rw [← hafter]
    exact forall_interfaces_of_blockResult hidb (forall_interfaces_of_readBlockHeader ih hhdr) _

end Interfaces

/-- The sizes that the fields of a file can give a packet. -/
structure PcapPacket.FileSized (pkt : PcapPacket) : Prop extends pkt.Captured where
  dataLength : pkt.data.length < 2 ^ 32
  linkTypeFits : Fmt.Fits .I pkt.linkType

section FileSized

variable {data : Bytes} {pkt : PcapPacket}

theorem fileSized_of_pcapHead {format : PcapFormat} {rest : Bytes} {size : Nat}
    {objection : Option Error} (hformat : readGlobalHeader data = .ok format)
    (h : pcapHead format rest = .unit size () objection (some pkt)) : pkt.FileSized := by
  refine ⟨captured_of_pcapHead h, ?_, ?_⟩
  · obtain ⟨hdr, -, hhdr, rfl, hle, -, hitem⟩ := pcapHead_eq_unit.mp h
    obtain rfl := Option.some.inj hitem
    obtain ⟨tsSec, -, hhdr⟩ := bind_eq_ok.mp hhdr
    obtain ⟨tsFrac, -, hhdr⟩ := bind_eq_ok.mp hhdr
    obtain ⟨inclLen, hincl, hhdr⟩ := bind_eq_ok.mp hhdr
    obtain ⟨origLen, -, hhdr⟩ := bind_eq_ok.mp hhdr
    obtain rfl := pure_eq_ok.mp hhdr
    have hfits := Fmt.fits_I.mp (unpackIn_fits hincl)
    have hlen : (slice rest recordHeaderSize (recordHeaderSize + inclLen)).length = inclLen :=
      length_slice_add hle
    show (slice rest recordHeaderSize (recordHeaderSize + inclLen)).length < 2 ^ 32
    omega
  · obtain ⟨hdr, -, -, -, -, -, hitem⟩ := pcapHead_eq_unit.mp h
    obtain rfl := Option.some.inj hitem
    obtain ⟨_, -, hformat⟩ := bind_eq_ok.mp hformat
    dsimp only at hformat
    split at hformat
    next => cases hformat
    next =>
      obtain ⟨linkType, hlink, hformat⟩ := bind_eq_ok.mp hformat
      obtain rfl := pure_eq_ok.mp hformat
      exact unpackIn_fits hlink

theorem parseIdb_linkType (body : Bytes) (order : ByteOrder) (iface : Interface)
    (h : parseIdb body order = .ok iface) : iface.linkType < 2 ^ 16 := by
  obtain ⟨_, -, h⟩ := bind_eq_ok.mp h
  obtain ⟨linkType, hlink, h⟩ := bind_eq_ok.mp h
  obtain ⟨resolution, -, h⟩ := bind_eq_ok.mp h
  obtain rfl := pure_eq_ok.mp h
  have hfits := Fmt.fits_H.mp (unpackIn_fits hlink)
  show linkType < 2 ^ 16
  omega

theorem parseBlock_of_blockResult {hdr : BlockHeader} {body : Bytes} {after : PcapngState}
    {objection : Option Error} (h : blockResult hdr body = (after, objection, some pkt)) :
    ∃ interfaces, parseBlock hdr body = .ok (interfaces, some pkt) := by
  unfold blockResult at h
  cases hparse : parseBlock hdr body with
  | error e =>
    rw [hparse] at h
    cases h
  | ok result =>
    obtain ⟨interfaces, packet⟩ := result
    rw [hparse] at h
    cases h
    exact ⟨interfaces, rfl⟩

/-- The link type of a packet is that of an interface, or 0 where there is none. -/
theorem linkType_of_blockResult {hdr : BlockHeader} {body : Bytes} {after : PcapngState}
    {objection : Option Error} (hall : ∀ iface ∈ hdr.interfaces, iface.linkType < 2 ^ 16)
    (h : blockResult hdr body = (after, objection, some pkt)) : pkt.linkType < 2 ^ 16 := by
  obtain ⟨interfaces, hparse⟩ := parseBlock_of_blockResult h
  unfold parseBlock at hparse
  split at hparse
  next =>
    obtain ⟨_, -, hparse⟩ := bind_eq_ok.mp hparse
    cases hparse
  split at hparse
  next =>
    obtain ⟨packet, hpacket, hparse⟩ := bind_eq_ok.mp hparse
    cases hparse
    obtain ⟨iface, -, hiface, rfl⟩ := parseEpb_eq_ok.mp hpacket
    have hlink := hall iface (List.mem_of_getElem? hiface)
    show (iface.linkType : Int) < 2 ^ 16
    omega
  split at hparse
  next =>
    obtain ⟨packet, hpacket, hparse⟩ := bind_eq_ok.mp hparse
    cases hparse
    obtain ⟨_, -, hpacket⟩ := bind_eq_ok.mp hpacket
    obtain ⟨origLen, -, hpacket⟩ := bind_eq_ok.mp hpacket
    obtain rfl := pure_eq_ok.mp hpacket
    cases hinterfaces : hdr.interfaces with
    | nil => exact show (0 : Int) < 2 ^ 16 by decide
    | cons iface interfaces =>
      rw [hinterfaces] at hall
      have hlink := hall iface List.mem_cons_self
      show (iface.linkType : Int) < 2 ^ 16
      omega
  next => cases hparse

theorem fileSized_of_pcapngHead {state after : PcapngState} {off size : Nat}
    {objection : Option Error} {strict : Bool}
    (hvisits : pcapngFraming.Visits strict ⟨none, []⟩ data state off)
    (h : pcapngHead state (data.drop off) = .unit size after objection (some pkt)) :
    pkt.FileSized := by
  obtain ⟨hdr, -, hhdr, rfl, hmin, hle, hresult⟩ := pcapngHead_eq_unit.mp h
  have hcaptured := captured_of_blockResult hresult
  refine ⟨hcaptured, ?_, ?_⟩
  · have hfits : Fmt.Fits .I hdr.blockTotalLength := by
      obtain ⟨state', -, hhdr⟩ := bind_eq_ok.mp hhdr
      split at hhdr
      next => cases hhdr
      next =>
        obtain ⟨blockType, -, hhdr⟩ := bind_eq_ok.mp hhdr
        obtain ⟨total, htotal, hhdr⟩ := bind_eq_ok.mp hhdr
        obtain rfl := pure_eq_ok.mp hhdr
        exact unpackIn_fits htotal
    obtain ⟨start, n, -, -, hroom, hdata⟩ := data_of_blockResult hresult
    have hlt := Fmt.fits_I.mp hfits
    simp only [length_slice, blockHeaderSize, blockTrailerSize] at hroom
    rw [hdata]
    simp only [length_slice]
    omega
  · have hall := forall_interfaces_of_visits parseIdb_linkType hvisits
    have hlink := linkType_of_blockResult (forall_interfaces_of_readBlockHeader hall hhdr) hresult
    have hnonneg := hcaptured.linkType
    exact Fmt.fits_I.mpr (by omega)

/-- Whatever its format and the mode, a reader yields what fits the fields of a file. -/
theorem fileSized_of_readMode (strict : Bool) (data : Bytes) :
    (∀ pkt ∈ (readPcapMode strict data).items, pkt.FileSized) ∧
      ∀ pkt ∈ (readPcapngMode strict data).items, pkt.FileSized :=
  ⟨forall_items_readPcapMode strict fun _ _ _ _ _ => fileSized_of_pcapHead,
    forall_items_readPcapngMode strict fun _ _ _ _ _ _ => fileSized_of_pcapngHead⟩

theorem fileSized_of_readCapture : ∀ pkt ∈ (readCapture data).items, pkt.FileSized := by
  unfold readCapture
  split
  next => exact (fileSized_of_readMode true data).2
  next => exact (fileSized_of_readMode true data).1

end FileSized

end Rtpkit

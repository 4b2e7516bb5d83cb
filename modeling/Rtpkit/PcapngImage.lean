import Rtpkit.PcapngWire
import Mathlib.Data.Finset.Card
import Mathlib.Order.Interval.Finset.Basic
import Mathlib.Data.Int.Interval

namespace Rtpkit

open Outcome Chunk

theorem internLinkTypes_concat (packets : List PcapPacket) (pkt : PcapPacket) :
    internLinkTypes (packets ++ [pkt]) = internLinkType (internLinkTypes packets) pkt := by
  simp [internLinkTypes]

theorem keys_internLinkType (interfaces : OrderedDict Int Nat) (pkt : PcapPacket) :
    (internLinkType interfaces pkt).keys =
      if pkt.linkType ∈ interfaces.keys then interfaces.keys
      else interfaces.keys ++ [pkt.linkType] := by
  unfold internLinkType
  cases hfound : interfaces.get? pkt.linkType with
  | none => exact interfaces.keys_set _ _
  | some i =>
    rw [if_pos (OrderedDict.mem_keys_of_get? hfound)]

theorem mem_internLinkTypes {packets : List PcapPacket} {linkType : Int} :
    linkType ∈ (internLinkTypes packets).keys ↔ ∃ pkt ∈ packets, pkt.linkType = linkType := by
  induction packets using List.reverseRecOn with
  | nil => simp [internLinkTypes, OrderedDict.empty, OrderedDict.keys]
  | append_singleton packets pkt ih =>
    have hlast : (∃ p ∈ packets ++ [pkt], p.linkType = linkType) ↔
        (∃ p ∈ packets, p.linkType = linkType) ∨ linkType = pkt.linkType := by
      simp [or_and_right, exists_or, eq_comm]
    rw [internLinkTypes_concat, keys_internLinkType, hlast, ← ih]
    split
    next hmem =>
      constructor
      · exact .inl
      · rintro (h | rfl)
        · exact h
        · exact hmem
    next => rw [List.mem_append, List.mem_singleton]

/-- The number of a link type is its place among the link types in order of appearance. -/
theorem get?_internLinkTypes {packets : List PcapPacket} {linkType : Int}
    (h : linkType ∈ (internLinkTypes packets).keys) :
    (internLinkTypes packets).get? linkType =
      some ((internLinkTypes packets).keys.idxOf linkType) := by
  induction packets using List.reverseRecOn with
  | nil => simp [internLinkTypes, OrderedDict.empty, OrderedDict.keys] at h
  | append_singleton packets pkt ih =>
    rw [internLinkTypes_concat] at h ⊢
    rw [keys_internLinkType] at h ⊢
    generalize hinter : internLinkTypes packets = interfaces at ih h ⊢
    unfold internLinkType
    cases hfound : interfaces.get? pkt.linkType with
    | some i =>
      rw [if_pos (OrderedDict.mem_keys_of_get? hfound)] at h ⊢
      exact ih h
    | none =>
      have hnew := (interfaces.get?_eq_none_iff _).mp hfound
      rw [if_neg hnew] at h ⊢
      rw [OrderedDict.get?_set]
      by_cases hlink : linkType = pkt.linkType
      · rw [if_pos hlink, hlink, List.idxOf_append_of_notMem hnew]
        simp [OrderedDict.keys]
      · have hold : linkType ∈ interfaces.keys := by simpa [hlink] using h
        rw [if_neg hlink, ih hold, List.idxOf_append_of_mem hold]

theorem ifaceIdOf_eq {packets : List PcapPacket} {pkt : PcapPacket} (h : pkt ∈ packets) :
    ifaceIdOf (internLinkTypes packets) pkt.linkType =
      .ok ((internLinkTypes packets).keys.idxOf pkt.linkType) := by
  unfold ifaceIdOf
  rw [get?_internLinkTypes (mem_internLinkTypes.mpr ⟨pkt, h, rfl⟩)]

/-- There are no more interfaces than link types of 16 bits. -/
theorem length_internLinkTypes {packets : List PcapPacket}
    (h : ∀ pkt ∈ packets, Fmt.Fits .H pkt.linkType) :
    (internLinkTypes packets).keys.length ≤ 65536 := by
  have hsub : (internLinkTypes packets).keys.toFinset ⊆ Finset.Icc 0 65535 := by
    intro k hk
    obtain ⟨pkt, hpkt, rfl⟩ := mem_internLinkTypes.mp (List.mem_toFinset.mp hk)
    rw [Finset.mem_Icc]
    exact Fmt.fits_H.mp (h pkt hpkt)
  have hcard := Finset.card_le_card hsub
  rw [List.toFinset_card_of_nodup (internLinkTypes packets).nodup_keys] at hcard
  simpa using hcard

/-- The place of a packet's link type among the interfaces of the file. -/
def ifaceIndex (packets : List PcapPacket) (pkt : PcapPacket) : Nat :=
  (internLinkTypes packets).keys.idxOf pkt.linkType

theorem ifaceIndex_fits {packets : List PcapPacket} {pkt : PcapPacket}
    (h : ∀ pkt ∈ packets, Fmt.Fits .H pkt.linkType) (hpkt : pkt ∈ packets) :
    Fmt.Fits .I (ifaceIndex packets pkt) := by
  have hlen := length_internLinkTypes h
  have hlt := List.idxOf_lt_length_of_mem (mem_internLinkTypes.mpr ⟨pkt, hpkt, rfl⟩)
  rw [Fmt.fits_I, ifaceIndex]
  omega

def idbWire (linkType : Int) : Bytes := blockWire idbType (idbBody linkType)

def epbWire (packets : List PcapPacket) (pkt : PcapPacket) : Bytes :=
  blockWire epbType (epbBody (ifaceIndex packets pkt) pkt)

def pcapngImage (packets : List PcapPacket) : Bytes :=
  blockWire shbType shbBody ++ (((internLinkTypes packets).keys.map idbWire).flatten ++
    (packets.map (epbWire packets)).flatten)

/-- The packets that fit the fields of their blocks. -/
structure PcapPacket.Writable (pkt : PcapPacket) : Prop extends pkt.FitsBlock where
  linkType : Fmt.Fits .H pkt.linkType

theorem keys_fit_iff {packets : List PcapPacket} :
    (∀ linkType ∈ (internLinkTypes packets).keys, Fmt.Fits .H linkType) ↔
      ∀ pkt ∈ packets, Fmt.Fits .H pkt.linkType := by
  constructor
  · intro h pkt hpkt
    exact h _ (mem_internLinkTypes.mpr ⟨pkt, hpkt, rfl⟩)
  · intro h linkType hmem
    obtain ⟨pkt, hpkt, rfl⟩ := mem_internLinkTypes.mp hmem
    exact h pkt hpkt

theorem writePcapng_eq_ok {packets : List PcapPacket} {b : Bytes} :
    writePcapng packets = .ok b ↔ (∀ pkt ∈ packets, pkt.Writable) ∧ b = pcapngImage packets := by
  have hidbs : ∀ idbs, (internLinkTypes packets).keys.mapM buildIdb = .ok idbs ↔
      (∀ pkt ∈ packets, Fmt.Fits .H pkt.linkType) ∧
        idbs = (internLinkTypes packets).keys.map idbWire := by
    intro idbs
    rw [mapM_eq_ok_of_spec (fun x y => buildIdb_eq_ok), keys_fit_iff]
    rfl
  have hepbs : ∀ epbs, (packets.mapM fun pkt => do
      let ifaceId ← ifaceIdOf (internLinkTypes packets) pkt.linkType
      buildEpb ifaceId pkt) = .ok epbs ↔
        (∀ pkt ∈ packets, Fmt.Fits .I (ifaceIndex packets pkt) ∧ pkt.FitsBlock) ∧
          epbs = packets.map (epbWire packets) := by
    intro epbs
    refine mapM_eq_ok_of_mem_spec fun pkt hpkt b => ?_
    rw [ifaceIdOf_eq hpkt, bind_ok, buildEpb_eq_ok, and_assoc]
    rfl
  simp only [writePcapng, buildShb_eq, bind_ok, bind_eq_ok, hidbs, hepbs, pure_eq_ok]
  constructor
  · rintro ⟨_, ⟨hlink, rfl⟩, _, ⟨hfits, rfl⟩, rfl⟩
    exact ⟨fun pkt hpkt => ⟨(hfits pkt hpkt).2, hlink pkt hpkt⟩, rfl⟩
  · rintro ⟨hall, rfl⟩
    have hlink : ∀ pkt ∈ packets, Fmt.Fits .H pkt.linkType := fun pkt hpkt => (hall pkt hpkt).linkType
    refine ⟨_, ⟨hlink, rfl⟩, _, ⟨fun pkt hpkt => ?_, rfl⟩, rfl⟩
    exact ⟨ifaceIndex_fits hlink hpkt, (hall pkt hpkt).toFitsBlock⟩

theorem wrapBlock_failsOnly (blockType : Nat) (body : Bytes) :
    FailsOnly IsStructError (wrapBlock blockType body) :=
  failsOnly_bind (packIn_failsOnly _) fun _ _ =>
    failsOnly_bind (packIn_failsOnly _) fun _ _ => failsOnly_ok _

theorem buildIdb_failsOnly (linkType : Int) : FailsOnly IsStructError (buildIdb linkType) :=
  failsOnly_bind (packIn_failsOnly _) fun _ _ => wrapBlock_failsOnly _ _

theorem buildEpb_failsOnly (ifaceId : Nat) (pkt : PcapPacket) :
    FailsOnly IsStructError (buildEpb ifaceId pkt) :=
  failsOnly_bind (packIn_failsOnly _) fun _ _ => wrapBlock_failsOnly _ _

/-- The writer fails as `struct` does: the interface of a packet is always found. -/
theorem writePcapng_failsOnly (packets : List PcapPacket) :
    FailsOnly IsStructError (writePcapng packets) := by
  rw [writePcapng, buildShb_eq, bind_ok]
  refine failsOnly_bind (failsOnly_mapM fun linkType _ => buildIdb_failsOnly linkType) fun _ _ => ?_
  refine failsOnly_bind (failsOnly_mapM fun pkt hpkt => ?_) fun _ _ => failsOnly_ok _
  rw [ifaceIdOf_eq hpkt, bind_ok]
  exact buildEpb_failsOnly _ pkt

theorem writePcapng_raises_iff {packets : List PcapPacket} :
    (∃ detail, writePcapng packets = .error (.structError detail)) ↔
      ¬∀ pkt ∈ packets, pkt.Writable := by
  cases hwrite : writePcapng packets with
  | ok b =>
    have hall := (writePcapng_eq_ok.mp hwrite).1
    refine iff_of_false ?_ (not_not.mpr hall)
    rintro ⟨detail, h⟩
    cases h
  | error e =>
    obtain ⟨detail, rfl⟩ := writePcapng_failsOnly packets e hwrite
    refine iff_of_true ⟨detail, rfl⟩ fun hall => ?_
    rw [writePcapng_eq_ok.mpr ⟨hall, rfl⟩] at hwrite
    cases hwrite

end Rtpkit

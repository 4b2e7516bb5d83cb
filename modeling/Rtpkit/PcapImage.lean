import Rtpkit.PcapWriter
import Rtpkit.Requantised
import Mathlib.Tactic.NormNum

namespace Rtpkit

open Outcome

/-- The link type that a file gets: the argument, else that of the first packet. -/
def chosenLinkType (packets : List PcapPacket) (linkType : Option Int) : Option Int :=
  linkType.or (packets.head?.map PcapPacket.linkType)

theorem chooseLinkType_eq_ok {packets : List PcapPacket} {linkType : Option Int} {chosen : Int} :
    chooseLinkType packets linkType = .ok chosen ↔ chosenLinkType packets linkType = some chosen := by
  cases linkType with
  | some l => simp [chooseLinkType, chosenLinkType, pure_eq_ok]
  | none =>
    cases packets with
    | nil => simp [chooseLinkType, chosenLinkType]
    | cons pkt packets => simp [chooseLinkType, chosenLinkType, pure_eq_ok]

theorem checkLinkTypes_eq_ok {chosen : Int} {i : Nat} {packets : List PcapPacket} {u : Unit} :
    checkLinkTypes chosen i packets = .ok u ↔ ∀ pkt ∈ packets, pkt.linkType = chosen := by
  induction packets generalizing i with
  | nil => simp [checkLinkTypes, pure_eq_ok]
  | cons pkt packets ih =>
    simp only [checkLinkTypes, bind_eq_ok, require_eq_ok, ih, exists_const, List.forall_mem_cons]

section Split

variable {t : ℚ}

/-- The seconds and microseconds are the two digits of the rounded number of microseconds: the
whole seconds are an even number of microseconds, so ties are decided alike. -/
theorem splitTimestamp_eq (h : 0 ≤ t) :
    splitTimestamp t = (roundHalfEven (t * 1000000) / 1000000,
      roundHalfEven (t * 1000000) % 1000000) := by
  have hshift : (t - ⌊t⌋) * 1000000 + ((⌊t⌋ * 1000000 : ℤ) : ℚ) = t * 1000000 := by
    push_cast
    ring
  have heven : ⌊t⌋ * 1000000 % 2 = 0 := by omega
  have hround := roundHalfEven_add_even ((t - ⌊t⌋) * 1000000) heven
  rw [hshift] at hround
  have hlow : 0 ≤ (t - ⌊t⌋) * 1000000 :=
    mul_nonneg (sub_nonneg.mpr (Int.floor_le t)) (by norm_num)
  have hhigh : (t - ⌊t⌋) * 1000000 < ((1000000 : ℤ) : ℚ) := by
    have hlt := Int.lt_floor_add_one t
    push_cast
    linarith
  have husec := roundHalfEven_nonneg hlow
  have husec' := roundHalfEven_le hhigh
  unfold splitTimestamp
  rw [truncate_of_nonneg h, hround]
  dsimp only
  split
  next => ext <;> dsimp only <;> omega
  next => ext <;> dsimp only <;> omega

end Split

def globalHeaderWire (linkType : Int) : Bytes :=
  magicLeUs ++ (Fmt.wireIn .little .H 2 ++ (Fmt.wireIn .little .H 4 ++ (signedWire .little 4 0 ++
    (Fmt.wireIn .little .I 0 ++ (Fmt.wireIn .little .I 262144 ++ Fmt.wireIn .little .I linkType)))))

theorem buildGlobalHeader_eq_ok {linkType : Int} {b : Bytes} :
    buildGlobalHeader linkType = .ok b ↔
      Fmt.Fits .I linkType ∧ b = globalHeaderWire linkType := by
  simp only [buildGlobalHeader, bind_eq_ok, packIn_eq_ok, pure_eq_ok, List.forall_mem_cons,
    List.flatMap_cons, List.flatMap_nil, List.append_nil]
  constructor
  · rintro ⟨_, ⟨-, rfl⟩, _, ⟨⟨-, -, hlink, -⟩, rfl⟩, rfl⟩
    exact ⟨hlink, by simp [globalHeaderWire]⟩
  · rintro ⟨hlink, rfl⟩
    refine ⟨_, ⟨⟨by decide, by decide, by simp⟩, rfl⟩, _,
      ⟨⟨by decide, by decide, hlink, by simp⟩, rfl⟩, ?_⟩
    simp [globalHeaderWire]

def recordWire (pkt : PcapPacket) : Bytes :=
  Fmt.wireIn .little .I (splitTimestamp pkt.timestamp).1 ++
    (Fmt.wireIn .little .I (splitTimestamp pkt.timestamp).2 ++
      (Fmt.wireIn .little .I pkt.data.length ++
        (Fmt.wireIn .little .I pkt.originalLength ++ pkt.data)))

/-- What a packet needs so that its record can be built. -/
structure PcapPacket.FitsHeader (pkt : PcapPacket) : Prop where
  seconds : Fmt.Fits .I (splitTimestamp pkt.timestamp).1
  microseconds : Fmt.Fits .I (splitTimestamp pkt.timestamp).2
  data : Fmt.Fits .I pkt.data.length
  originalLength : Fmt.Fits .I pkt.originalLength

theorem buildRecord_eq_ok {pkt : PcapPacket} {b : Bytes} :
    buildRecord pkt = .ok b ↔ pkt.FitsHeader ∧ b = recordWire pkt := by
  simp only [buildRecord, bind_eq_ok, packIn_eq_ok, pure_eq_ok, List.forall_mem_cons,
    List.flatMap_cons, List.flatMap_nil, List.append_nil]
  constructor
  · rintro ⟨_, ⟨⟨hsec, husec, hdata, horig, -⟩, rfl⟩, rfl⟩
    exact ⟨⟨hsec, husec, hdata, horig⟩, by simp [recordWire]⟩
  · rintro ⟨h, rfl⟩
    refine ⟨_, ⟨⟨h.seconds, h.microseconds, h.data, h.originalLength, by simp⟩, rfl⟩, ?_⟩
    simp [recordWire]

def pcapImage (linkType : Int) (packets : List PcapPacket) : Bytes :=
  globalHeaderWire linkType ++ (packets.map recordWire).flatten

theorem writePcap_eq_ok {packets : List PcapPacket} {linkType : Option Int} {b : Bytes} :
    writePcap packets linkType = .ok b ↔
      ∃ chosen, chosenLinkType packets linkType = some chosen ∧
        (∀ pkt ∈ packets, pkt.linkType = chosen) ∧ Fmt.Fits .I chosen ∧
        (∀ pkt ∈ packets, pkt.FitsHeader) ∧ b = pcapImage chosen packets := by
  simp only [writePcap, bind_eq_ok, chooseLinkType_eq_ok, checkLinkTypes_eq_ok,
    buildGlobalHeader_eq_ok, pure_eq_ok,
    mapM_eq_ok_of_spec (fun x y => buildRecord_eq_ok)]
  constructor
  · rintro ⟨chosen, hchosen, _, hsame, _, ⟨hlink, rfl⟩, _, ⟨hfits, rfl⟩, rfl⟩
    exact ⟨chosen, hchosen, hsame, hlink, hfits, rfl⟩
  · rintro ⟨chosen, hchosen, hsame, hlink, hfits, rfl⟩
    exact ⟨chosen, hchosen, (), hsame, _, ⟨hlink, rfl⟩, _, ⟨hfits, rfl⟩, rfl⟩

def IsPcapWriteError (e : Error) : Prop := ∃ detail, e = .pcapWriteError detail

theorem checkLinkTypes_failsOnly (chosen : Int) (i : Nat) (packets : List PcapPacket) :
    FailsOnly IsPcapWriteError (checkLinkTypes chosen i packets) := by
  induction packets generalizing i with
  | nil => exact failsOnly_ok _
  | cons pkt packets ih => exact failsOnly_bind (failsOnly_require ⟨_, rfl⟩) fun _ _ => ih _

theorem chosenLinkType_eq_none {packets : List PcapPacket} {linkType : Option Int} :
    chosenLinkType packets linkType = none ↔ packets = [] ∧ linkType = none := by
  rw [chosenLinkType, Option.or_eq_none_iff, Option.map_eq_none_iff, List.head?_eq_none_iff,
    and_comm]

theorem chooseLinkType_raises {packets : List PcapPacket} {linkType : Option Int}
    (h : chosenLinkType packets linkType = none) :
    ∃ e, chooseLinkType packets linkType = .error e ∧ IsPcapWriteError e := by
  obtain ⟨rfl, rfl⟩ := chosenLinkType_eq_none.mp h
  exact ⟨_, rfl, _, rfl⟩

theorem buildGlobalHeader_failsOnly (linkType : Int) :
    FailsOnly IsStructError (buildGlobalHeader linkType) :=
  failsOnly_bind (packIn_failsOnly _) fun _ _ =>
    failsOnly_bind (packIn_failsOnly _) fun _ _ => failsOnly_ok _

theorem buildRecord_failsOnly (pkt : PcapPacket) : FailsOnly IsStructError (buildRecord pkt) :=
  failsOnly_bind (packIn_failsOnly _) fun _ _ => failsOnly_ok _

/-- There is no link type for the file, or a packet has another one. -/
def LinkTypeClash (packets : List PcapPacket) (linkType : Option Int) : Prop :=
  (packets = [] ∧ linkType = none) ∨
    ∃ pkt ∈ packets, some pkt.linkType ≠ chosenLinkType packets linkType

/-- The writer raises its own exception over the link types only. -/
theorem writePcap_raises_iff {packets : List PcapPacket} {linkType : Option Int} :
    (∃ e, writePcap packets linkType = .error e ∧ IsPcapWriteError e) ↔
      LinkTypeClash packets linkType := by
  rw [LinkTypeClash, ← chosenLinkType_eq_none]
  cases hchosen : chosenLinkType packets linkType with
  | none =>
    obtain ⟨e, he, hwrite⟩ := chooseLinkType_raises hchosen
    refine iff_of_true ⟨e, ?_, hwrite⟩ (.inl rfl)
    rw [writePcap, he, bind_error]
  | some chosen =>
    rw [writePcap, chooseLinkType_eq_ok.mpr hchosen, bind_ok]
    cases hcheck : checkLinkTypes chosen 0 packets with
    | error e =>
      have hclash : ¬∀ pkt ∈ packets, pkt.linkType = chosen := by
        rw [← checkLinkTypes_eq_ok (i := 0) (u := ()), hcheck]
        simp
      refine iff_of_true ⟨e, rfl, checkLinkTypes_failsOnly _ _ _ _ hcheck⟩ (.inr ?_)
      simpa using hclash
    | ok u =>
      have hsame := checkLinkTypes_eq_ok.mp hcheck
      rw [bind_ok]
      apply iff_of_false
      · rintro ⟨e, he, detail, rfl⟩
        have hrest : FailsOnly IsStructError (buildGlobalHeader chosen >>= fun header =>
            packets.mapM buildRecord >>= fun records => pure (header ++ records.flatten)) :=
          failsOnly_bind (buildGlobalHeader_failsOnly _) fun _ _ =>
            failsOnly_bind (failsOnly_mapM fun pkt _ => buildRecord_failsOnly pkt) fun _ _ =>
              failsOnly_ok _
        obtain ⟨_, hstruct⟩ := hrest _ he
        cases hstruct
      · simpa using hsame

theorem exists_chosenLinkType {packets : List PcapPacket} {linkType : Option Int}
    (h : ¬LinkTypeClash packets linkType) :
    ∃ chosen, chosenLinkType packets linkType = some chosen ∧
      ∀ pkt ∈ packets, pkt.linkType = chosen := by
  rw [LinkTypeClash, ← chosenLinkType_eq_none, not_or] at h
  obtain ⟨chosen, hchosen⟩ := Option.ne_none_iff_exists'.mp h.1
  refine ⟨chosen, hchosen, fun pkt hpkt => ?_⟩
  by_contra hother
  exact h.2 ⟨pkt, hpkt, by simpa [hchosen] using hother⟩

theorem chosenLinkType_requantised (packets : List PcapPacket) (linkType : Option Int) :
    chosenLinkType (packets.map PcapPacket.requantised) linkType =
      chosenLinkType packets linkType := by
  cases packets with
  | nil => rfl
  | cons pkt packets => rfl

end Rtpkit

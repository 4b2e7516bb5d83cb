import Rtpkit.RtcpNormalise

namespace Rtpkit

open Outcome

def IsRtcpBuildError (e : Error) : Prop := ∃ field detail, e = .rtcpBuildError field detail

/-- What the serializers raise before the `except` clause of `_build_one`. -/
def IsSerializeError (e : Error) : Prop := IsRtcpBuildError e ∨ IsStructError e

theorem isSerializeError_build (field detail : String) :
    IsSerializeError (.rtcpBuildError field detail) := .inl ⟨_, _, rfl⟩

theorem structPack_failsSerialize (args : List (Fmt × Int)) :
    FailsOnly IsSerializeError (structPack args) :=
  fun e he => .inr (structPack_failsOnly args e he)

theorem requireCount_failsOnly (count : Nat) (field : String) :
    FailsOnly IsSerializeError (requireCount count field) :=
  failsOnly_require (isSerializeError_build _ _)

theorem serializeReportBlock_failsOnly (rb : ReportBlock) :
    FailsOnly IsSerializeError (serializeReportBlock rb) := by
  refine failsOnly_bind (failsOnly_require (isSerializeError_build _ _)) fun _ _ => ?_
  refine failsOnly_bind (failsOnly_require (isSerializeError_build _ _)) fun _ _ => ?_
  refine failsOnly_bind (structPack_failsSerialize _) fun _ _ => ?_
  exact failsOnly_bind (structPack_failsSerialize _) fun _ _ => failsOnly_ok _

theorem serializeReportBlocks_failsOnly (blocks : List ReportBlock) :
    FailsOnly IsSerializeError (blocks.mapM serializeReportBlock) :=
  failsOnly_mapM fun rb _ => serializeReportBlock_failsOnly rb

theorem serializeSdesItem_failsOnly (item : SdesItem) :
    FailsOnly IsSerializeError (serializeSdesItem item) := by
  refine failsOnly_bind (failsOnly_require (isSerializeError_build _ _)) fun _ _ => ?_
  refine failsOnly_bind (failsOnly_require (isSerializeError_build _ _)) fun _ _ => ?_
  exact failsOnly_bind (structPack_failsSerialize _) fun _ _ => failsOnly_ok _

theorem serializeSdesChunk_failsOnly (chunk : SdesChunk) :
    FailsOnly IsSerializeError (serializeSdesChunk chunk) := by
  refine failsOnly_bind (failsOnly_mapM fun item _ => serializeSdesItem_failsOnly item)
    fun _ _ => ?_
  exact failsOnly_bind (structPack_failsSerialize _) fun _ _ => failsOnly_ok _

theorem serializeReason_failsOnly (reason : Option Bytes) :
    FailsOnly IsSerializeError (serializeReason reason) := by
  cases reason with
  | none => exact failsOnly_ok _
  | some reason =>
    refine failsOnly_bind (failsOnly_require (isSerializeError_build _ _)) fun _ _ => ?_
    exact failsOnly_bind (structPack_failsSerialize _) fun _ _ => failsOnly_ok _

theorem serializeApp_failsOnly (pkt : ApplicationDefined) :
    FailsOnly IsSerializeError (serializeApp pkt) := by
  refine failsOnly_bind (failsOnly_require (isSerializeError_build _ _)) fun _ _ => ?_
  cases encodeAscii pkt.name with
  | none => exact failsOnly_error (isSerializeError_build _ _)
  | some name =>
    refine failsOnly_bind (failsOnly_require (isSerializeError_build _ _)) fun _ _ => ?_
    exact failsOnly_bind (structPack_failsSerialize _) fun _ _ => failsOnly_ok _

theorem serialize_failsOnly (pkt : RtcpPacket) : FailsOnly IsSerializeError (serialize pkt) := by
  cases pkt with
  | senderReport pkt =>
    refine failsOnly_bind (requireCount_failsOnly _ _) fun _ _ => ?_
    refine failsOnly_bind (structPack_failsSerialize _) fun _ _ => ?_
    exact failsOnly_bind (serializeReportBlocks_failsOnly _) fun _ _ => failsOnly_ok _
  | receiverReport pkt =>
    refine failsOnly_bind (requireCount_failsOnly _ _) fun _ _ => ?_
    refine failsOnly_bind (structPack_failsSerialize _) fun _ _ => ?_
    exact failsOnly_bind (serializeReportBlocks_failsOnly _) fun _ _ => failsOnly_ok _
  | sourceDescription pkt =>
    refine failsOnly_bind (requireCount_failsOnly _ _) fun _ _ => ?_
    exact failsOnly_bind (failsOnly_mapM fun chunk _ => serializeSdesChunk_failsOnly chunk)
      fun _ _ => failsOnly_ok _
  | goodbye pkt =>
    refine failsOnly_bind (requireCount_failsOnly _ _) fun _ _ => ?_
    refine failsOnly_bind (structPack_failsSerialize _) fun _ _ => ?_
    exact failsOnly_bind (serializeReason_failsOnly _) fun _ _ => failsOnly_ok _
  | applicationDefined pkt => exact serializeApp_failsOnly pkt

theorem convertStructError_failsOnly {α : Type} (className : String) {r : Except Error α}
    (h : FailsOnly IsSerializeError r) : FailsOnly IsRtcpBuildError (convertStructError className r) := by
  cases r with
  | ok a => exact failsOnly_ok a
  | error e =>
    rcases h e rfl with ⟨field, detail, rfl⟩ | ⟨detail, rfl⟩
    · exact failsOnly_error ⟨_, _, rfl⟩
    · intro e he
      cases he
      exact ⟨_, _, rfl⟩

/-- All limits of the format but the one on the length of the body. -/
structure RtcpPacket.FieldsFit (pkt : RtcpPacket) : Prop where
  body : pkt.BodyBuildable
  paddingRange : 0 ≤ pkt.paddingSize ∧ pkt.paddingSize ≤ 252
  paddingAligned : pkt.paddingSize % 4 = 0

/-- What the wire format can hold. -/
structure RtcpPacket.Representable (pkt : RtcpPacket) : Prop extends pkt.FieldsFit where
  dataAligned : pkt.DataAligned
  words : pkt.payload.length / 4 ≤ 0xFFFF

/-- A body too long for the length field of the header is all that is wrong with the packet. -/
def RtcpPacket.Oversized (pkt : RtcpPacket) : Prop :=
  pkt.FieldsFit ∧ 0xFFFF < pkt.payload.length / 4

theorem RtcpPacket.fieldsFit_iff {pkt : RtcpPacket} : pkt.FieldsFit ↔
    pkt.BodyBuildable ∧ (0 ≤ pkt.paddingSize ∧ pkt.paddingSize ≤ u8) ∧
      pkt.paddingSize % 4 = 0 := by
  simp only [u8]
  constructor
  · rintro ⟨hbody, hrange, hmod⟩
    exact ⟨hbody, by omega, hmod⟩
  · rintro ⟨hbody, hrange, hmod⟩
    exact ⟨hbody, by omega, hmod⟩

theorem RtcpPacket.buildable_iff {pkt : RtcpPacket} :
    pkt.Buildable ↔ pkt.FieldsFit ∧ ¬pkt.Oversized := by
  unfold RtcpPacket.Oversized
  constructor
  · rintro ⟨hbody, hrange, hmod, hwords⟩
    exact ⟨RtcpPacket.fieldsFit_iff.mpr ⟨hbody, hrange, hmod⟩, fun h => by omega⟩
  · rintro ⟨hfields, hover⟩
    obtain ⟨hbody, hrange, hmod⟩ := RtcpPacket.fieldsFit_iff.mp hfields
    exact ⟨hbody, hrange, hmod, by have := mt (And.intro hfields) hover; omega⟩

/-- The header is packed outside the `try` block, after everything else was checked. -/
theorem buildOne_oversized {pkt : RtcpPacket} (h : pkt.Oversized) :
    ∃ detail, buildOne pkt = .error (.structError detail) := by
  obtain ⟨hbody, hrange, hmod⟩ := RtcpPacket.fieldsFit_iff.mp h.1
  cases hbuild : buildOne pkt with
  | ok b =>
    have hwords := (buildOne_eq_ok.mp hbuild).1.words
    have hover := h.2
    omega
  | error e =>
    simp only [buildOne, convertStructError_eq_ok.mpr (serialize_eq_ok.mpr ⟨hbody, rfl⟩),
      bind_ok, require_pos hrange, require_pos hmod] at hbuild
    have hheader : FailsOnly IsStructError (Except.error e : Except Error Bytes) := by
      rw [← hbuild]
      exact failsOnly_bind (structPack_failsOnly _) fun _ _ => failsOnly_ok _
    obtain ⟨detail, rfl⟩ := hheader e rfl
    exact ⟨detail, rfl⟩

theorem buildOne_failsOnly {pkt : RtcpPacket} (h : ¬pkt.Oversized) :
    FailsOnly IsRtcpBuildError (buildOne pkt) := by
  by_cases hfields : pkt.FieldsFit
  · rw [buildOne_eq_ok.mpr ⟨RtcpPacket.buildable_iff.mpr ⟨hfields, h⟩, rfl⟩]
    exact failsOnly_ok _
  · apply failsOnly_bind (convertStructError_failsOnly _ (serialize_failsOnly pkt))
    rintro s hs
    refine failsOnly_bind (failsOnly_require ⟨_, _, rfl⟩) fun _ hrange => ?_
    refine failsOnly_bind (failsOnly_require ⟨_, _, rfl⟩) fun _ hmod => ?_
    have hbody := (serialize_eq_ok.mp (convertStructError_eq_ok.mp hs)).1
    exact absurd (RtcpPacket.fieldsFit_iff.mpr
      ⟨hbody, require_eq_ok.mp hrange, require_eq_ok.mp hmod⟩) hfields

/-- Every failure is a `RtcpBuildError`, and nothing is built that the format cannot hold. -/
def RejectsUnrepresentable (packets : List RtcpPacket) : Prop :=
  FailsOnly IsRtcpBuildError (buildRtcp packets) ∧
    ∀ b, buildRtcp packets = .ok b → ∀ pkt ∈ packets, pkt.Representable

theorem buildRtcp_eq_error {packets : List RtcpPacket} {e : Error} :
    buildRtcp packets = .error e ↔ ∃ before pkt after, packets = before ++ pkt :: after ∧
      (∀ p ∈ before, p.Buildable) ∧ buildOne pkt = .error e := by
  have hmap : buildRtcp packets = .error e ↔ packets.mapM buildOne = .error e := by
    unfold buildRtcp
    cases packets.mapM buildOne with
    | error e' => simp
    | ok parts => simp [bind_ok, pure, Except.pure]
  have hok : ∀ p, (∃ b, buildOne p = .ok b) ↔ p.Buildable := by
    intro p
    constructor
    · rintro ⟨b, hb⟩
      exact (buildOne_eq_ok.mp hb).1
    · intro h
      exact ⟨_, buildOne_eq_ok.mpr ⟨h, rfl⟩⟩
  simp only [hmap, mapM_eq_error, hok]

/-- The builder rejects what it cannot represent, unless it meets a packet that is only too
long, or unless only the length of APP data is wrong. -/
theorem rejects_iff (packets : List RtcpPacket) :
    RejectsUnrepresentable packets ↔
      (∀ before pkt after, packets = before ++ pkt :: after → (∀ p ∈ before, p.Buildable) →
        ¬pkt.Oversized) ∧
      ((∀ pkt ∈ packets, pkt.Buildable) → ∀ pkt ∈ packets, pkt.DataAligned) := by
  constructor
  · rintro ⟨herror, hok⟩
    refine ⟨?_, ?_⟩
    · intro before pkt after heq hbefore hover
      obtain ⟨detail, hfail⟩ := buildOne_oversized hover
      obtain ⟨field, detail', h⟩ := herror _
        (buildRtcp_eq_error.mpr ⟨before, pkt, after, heq, hbefore, hfail⟩)
      cases h
    · intro hall pkt hpkt
      exact (hok _ (buildRtcp_eq_ok.mpr ⟨hall, rfl⟩) pkt hpkt).dataAligned
  · rintro ⟨hsize, haligned⟩
    refine ⟨?_, ?_⟩
    · intro e he
      obtain ⟨before, pkt, after, heq, hbefore, hfail⟩ := buildRtcp_eq_error.mp he
      exact buildOne_failsOnly (hsize before pkt after heq hbefore) e hfail
    · intro b hb pkt hpkt
      have hall := (buildRtcp_eq_ok.mp hb).1
      have hbuildable := hall pkt hpkt
      exact ⟨(RtcpPacket.buildable_iff.mp hbuildable).1, haligned hall pkt hpkt, hbuildable.words⟩

def plainApp (data : Bytes) : RtcpPacket := .applicationDefined ⟨0, 0, "name", data, 0⟩

theorem plainApp_oversized {data : Bytes} (h : 262136 ≤ data.length) :
    (plainApp data).Oversized := by
  have hname : encodeAscii "name" = some [110, 97, 109, 101] := by decide
  have hlen : (plainApp data).body.length = 8 + data.length := by
    simp only [plainApp, RtcpPacket.body, hname, Option.getD_some, List.length_append,
      Fmt.length_wire, Fmt.size_I, List.length_cons, List.length_nil]
    omega
  have hsubtype : (0 : Int) ≤ 0 ∧ (0 : Int) ≤ maxCount := by decide
  have hssrc : Fmt.Fits .I 0 := by decide
  have hpadding : (0 : Int) ≤ 0 ∧ (0 : Int) ≤ 252 := by decide
  refine ⟨⟨⟨hsubtype, ⟨_, hname, rfl⟩, hssrc⟩, hpadding, rfl⟩, ?_⟩
  rw [RtcpPacket.payload, List.length_append, hlen]
  omega

theorem rejects_fails_on_app :
    ¬RejectsUnrepresentable [plainApp (List.replicate 262136 0)] ∧
      ¬RejectsUnrepresentable [plainApp [7]] := by
  refine ⟨fun h => ?_, fun h => ?_⟩
  · have hover : (plainApp (List.replicate 262136 0)).Oversized :=
      plainApp_oversized (by rw [List.length_replicate])
    obtain ⟨detail, hfail⟩ := buildOne_oversized hover
    obtain ⟨field, detail', heq⟩ := h.1 _
      (buildRtcp_eq_error.mpr ⟨[], _, [], rfl, by simp, hfail⟩)
    cases heq
  · have hbuilt : buildRtcp [plainApp [7]] =
        .ok [128, 204, 0, 3, 0, 0, 0, 0, 110, 97, 109, 101, 7, 0, 0, 0] := by decide +kernel
    have haligned := (h.2 _ hbuilt _ (List.mem_singleton.mpr rfl)).dataAligned
    simp [plainApp, RtcpPacket.DataAligned] at haligned

end Rtpkit

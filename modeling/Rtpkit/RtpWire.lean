import Rtpkit.RtpBuilder

namespace Rtpkit

open Outcome

namespace RtpBuilder

def extensionWire (extData : Bytes) : Option Int → Bytes
  | none => []
  | some profile => Fmt.wire .H profile ++ (Fmt.wire .H (extData.length / 4 : Nat) ++ extData)

/-- The packet up to and including its payload. -/
def head (b : RtpBuilder) : Bytes :=
  Fmt.wire .B b.byte0 ++ (Fmt.wire .B b.byte1 ++ (Fmt.wire .H b.seq ++ (Fmt.wire .I b.timestamp ++
    (Fmt.wire .I b.ssrc ++ ((b.csrc.map (Fmt.wire .I)).flatten ++
      (extensionWire b.extData b.extProfile ++ b.payload))))))

/-- The padding after the payload: filler bytes, then the count. -/
def tail (padding : Int) (filler : Bytes) : Bytes :=
  if 0 < padding then filler ++ Fmt.wire .B padding else []

def wire (b : RtpBuilder) : Bytes :=
  b.head ++ tail b.padding (List.replicate (b.padding - 1).toNat 0)

structure ExtensionValid (extData : Bytes) (profile : Int) : Prop where
  profile : 0 ≤ profile ∧ profile ≤ u16
  aligned : extData.length % 4 = 0
  words : extData.length / 4 ≤ 0xFFFF

/-- The configurations that `_validate` lets pass. -/
structure Valid (b : RtpBuilder) : Prop where
  version : 0 ≤ b.version ∧ b.version ≤ 3
  payloadType : 0 ≤ b.payloadType ∧ b.payloadType ≤ 127
  seq : 0 ≤ b.seq ∧ b.seq ≤ u16
  timestamp : 0 ≤ b.timestamp ∧ b.timestamp ≤ u32
  ssrc : 0 ≤ b.ssrc ∧ b.ssrc ≤ u32
  csrcCount : b.csrc.length ≤ maxCsrc
  csrc : ∀ c ∈ b.csrc, 0 ≤ c ∧ c ≤ u32
  extension : ∀ profile, b.extProfile = some profile → ExtensionValid b.extData profile
  padding : 0 ≤ b.padding ∧ b.padding ≤ 255

theorem validateCsrc_eq_ok {i : Nat} {cs : List Int} {u : Unit} :
    validateCsrc i cs = .ok u ↔ ∀ c ∈ cs, 0 ≤ c ∧ c ≤ u32 := by
  induction cs generalizing i with
  | nil => simp [validateCsrc, pure, Except.pure]
  | cons c cs ih =>
    simp only [validateCsrc, bind_eq_ok, require_eq_ok, exists_const, ih, List.forall_mem_cons]

theorem validateExtension_eq_ok {extData : Bytes} {extProfile : Option Int} {u : Unit} :
    validateExtension extData extProfile = .ok u ↔
      ∀ profile, extProfile = some profile → ExtensionValid extData profile := by
  cases extProfile with
  | none => simp [validateExtension, pure, Except.pure]
  | some profile =>
    simp only [validateExtension, bind_eq_ok, require_eq_ok, exists_const, Option.some.injEq,
      forall_eq']
    constructor
    · rintro ⟨hp, ha, hw⟩
      simp only [u16] at hw
      exact ⟨hp, ha, by omega⟩
    · intro h
      have hw := h.words
      exact ⟨h.profile, h.aligned, by simp only [u16]; omega⟩

theorem validate_eq_ok {b : RtpBuilder} {u : Unit} : b.validate = .ok u ↔ b.Valid := by
  simp only [validate, bind_eq_ok, require_eq_ok, exists_const, validateCsrc_eq_ok,
    validateExtension_eq_ok]
  constructor
  · rintro ⟨hv, hp, hs, ht, hssrc, hn, hc, he, hpad⟩
    exact ⟨hv, hp, hs, ht, hssrc, hn, hc, he, by omega⟩
  · intro h
    have hpad := h.padding
    exact ⟨h.version, h.payloadType, h.seq, h.timestamp, h.ssrc, h.csrcCount, h.csrc, h.extension,
      by omega⟩

theorem packExtension_eq_ok {extData : Bytes} {extProfile : Option Int} {d : Bytes}
    (h : ∀ profile, extProfile = some profile → ExtensionValid extData profile) :
    packExtension extData extProfile = .ok d ↔ d = extensionWire extData extProfile := by
  cases extProfile with
  | none => simp [packExtension, extensionWire, pure, Except.pure, eq_comm]
  | some profile =>
    obtain ⟨hp, _, hw⟩ := h profile rfl
    simp only [packExtension, bind_eq_ok, structPack_eq_ok, pure_eq_ok, List.forall_mem_cons,
      List.flatMap_cons, List.flatMap_nil, List.append_nil, extensionWire]
    constructor
    · rintro ⟨_, ⟨_, rfl⟩, rfl⟩
      simp
    · rintro rfl
      exact ⟨_, ⟨⟨Fmt.fits_H.mpr hp, Fmt.fits_H.mpr (by omega), by simp⟩, rfl⟩, by simp⟩

theorem packPadding_eq_ok {padding : Int} {d : Bytes} (h : padding ≤ 255) :
    packPadding padding = .ok d ↔ d = tail padding (List.replicate (padding - 1).toNat 0) := by
  unfold packPadding tail
  split
  next hpos =>
    simp only [bind_eq_ok, structPack_eq_ok, pure_eq_ok, List.forall_mem_cons, List.flatMap_cons,
      List.flatMap_nil, List.append_nil]
    constructor
    · rintro ⟨_, ⟨_, rfl⟩, rfl⟩
      rfl
    · rintro rfl
      exact ⟨_, ⟨⟨Fmt.fits_B.mpr (by omega), by simp⟩, rfl⟩, rfl⟩
  next => simp [pure, Except.pure, eq_comm]

/-- The fields of the first byte, for each value of version, flags and CSRC count. -/
theorem byte0_fields :
    ∀ v < 4, ∀ pad ext : Bool, ∀ cc < 16,
      ((v <<< 6) ||| (pad.toNat <<< 5) ||| (ext.toNat <<< 4) ||| cc) < 256 ∧
      (((v <<< 6) ||| (pad.toNat <<< 5) ||| (ext.toNat <<< 4) ||| cc) >>> 6) &&& 0x03 = v ∧
      (((v <<< 6) ||| (pad.toNat <<< 5) ||| (ext.toNat <<< 4) ||| cc) >>> 5) &&& 0x01 =
        pad.toNat ∧
      (((v <<< 6) ||| (pad.toNat <<< 5) ||| (ext.toNat <<< 4) ||| cc) >>> 4) &&& 0x01 =
        ext.toNat ∧
      ((v <<< 6) ||| (pad.toNat <<< 5) ||| (ext.toNat <<< 4) ||| cc) &&& 0x0F = cc := by
  decide

theorem byte1_fields :
    ∀ marker : Bool, ∀ pt < 128, ((marker.toNat <<< 7) ||| pt) < 256 ∧
      (((marker.toNat <<< 7) ||| pt) >>> 7) &&& 0x01 = marker.toNat ∧
      ((marker.toNat <<< 7) ||| pt) &&& 0x7F = pt := by
  decide

/-- The bit fields that the parser reads back from the first two bytes. -/
structure HeaderBits (b : RtpBuilder) : Prop where
  byte0_lt : b.byte0 < 256
  version : (((b.byte0 >>> 6) &&& 0x03 : Nat) : Int) = b.version
  padding : (b.byte0 >>> 5) &&& 0x01 = (0 < b.padding : Bool).toNat
  extension : (b.byte0 >>> 4) &&& 0x01 = b.extProfile.isSome.toNat
  csrcCount : b.byte0 &&& 0x0F = b.csrc.length
  byte1_lt : b.byte1 < 256
  marker : (b.byte1 >>> 7) &&& 0x01 = b.marker.toNat
  payloadType : ((b.byte1 &&& 0x7F : Nat) : Int) = b.payloadType

theorem Valid.headerBits {b : RtpBuilder} (h : b.Valid) : b.HeaderBits := by
  have hv := h.version
  have hp := h.payloadType
  have hn := h.csrcCount
  simp only [maxCsrc] at hn
  have hcount : b.csrc.length &&& 0x0F = b.csrc.length := by
    rw [show 0x0F = 2 ^ 4 - 1 from rfl, Nat.and_two_pow_sub_one_eq_mod]
    omega
  obtain ⟨h0, h1, h2, h3, h4⟩ := byte0_fields (b.version % 4).toNat (by omega) (0 < b.padding)
    b.extProfile.isSome b.csrc.length (by omega)
  obtain ⟨g0, g1, g2⟩ := byte1_fields b.marker (b.payloadType % 0x80).toNat (by omega)
  constructor
  · rw [byte0, hcount]; exact h0
  · rw [byte0, hcount, h1]; omega
  · rw [byte0, hcount, h2]
  · rw [byte0, hcount, h3]
  · rw [byte0, hcount, h4]
  · exact g0
  · exact g1
  · rw [byte1, g2]; omega

/-- `build` returns on exactly the valid configurations. -/
theorem build_eq_ok {b : RtpBuilder} {d : Bytes} : b.build = .ok d ↔ b.Valid ∧ d = b.wire := by
  simp only [build, bind_eq_ok, validate_eq_ok, exists_const, structPack_eq_ok, pure_eq_ok,
    List.forall_mem_cons, List.flatMap_cons, List.flatMap_nil, List.append_nil,
    List.forall_mem_map, List.flatMap_map]
  constructor
  · rintro ⟨hv, _, ⟨_, rfl⟩, _, ⟨_, rfl⟩, e, he, p, hp, rfl⟩
    cases (packExtension_eq_ok hv.extension).mp he
    cases (packPadding_eq_ok hv.padding.2).mp hp
    exact ⟨hv, by simp [wire, head, List.flatMap_def]⟩
  · rintro ⟨hv, rfl⟩
    have hbits := hv.headerBits
    have h0 := hbits.byte0_lt
    have h1 := hbits.byte1_lt
    refine ⟨hv, _, ⟨⟨Fmt.fits_B.mpr (by omega), Fmt.fits_B.mpr (by omega), Fmt.fits_H.mpr hv.seq,
      Fmt.fits_I.mpr hv.timestamp, Fmt.fits_I.mpr hv.ssrc, by simp⟩, rfl⟩, _,
      ⟨fun c hc => Fmt.fits_I.mpr (hv.csrc c hc), rfl⟩, _, (packExtension_eq_ok hv.extension).mpr rfl,
      _, (packPadding_eq_ok hv.padding.2).mpr rfl, ?_⟩
    simp [wire, head, List.flatMap_def]

def IsRtpBuildError (e : Error) : Prop := ∃ field detail, e = .rtpBuildError field detail

theorem validateCsrc_failsOnly (i : Nat) (cs : List Int) :
    FailsOnly IsRtpBuildError (validateCsrc i cs) := by
  induction cs generalizing i with
  | nil => exact failsOnly_ok ()
  | cons c cs ih => exact failsOnly_bind (failsOnly_require ⟨_, _, rfl⟩) fun _ _ => ih (i + 1)

theorem validateExtension_failsOnly (extData : Bytes) (extProfile : Option Int) :
    FailsOnly IsRtpBuildError (validateExtension extData extProfile) := by
  cases extProfile with
  | none => exact failsOnly_ok ()
  | some profile =>
    refine failsOnly_bind (failsOnly_require ⟨_, _, rfl⟩) fun _ _ => ?_
    refine failsOnly_bind (failsOnly_require ⟨_, _, rfl⟩) fun _ _ => ?_
    exact failsOnly_require ⟨_, _, rfl⟩

theorem validate_failsOnly (b : RtpBuilder) : FailsOnly IsRtpBuildError b.validate := by
  refine failsOnly_bind (failsOnly_require ⟨_, _, rfl⟩) fun _ _ => ?_
  refine failsOnly_bind (failsOnly_require ⟨_, _, rfl⟩) fun _ _ => ?_
  refine failsOnly_bind (failsOnly_require ⟨_, _, rfl⟩) fun _ _ => ?_
  refine failsOnly_bind (failsOnly_require ⟨_, _, rfl⟩) fun _ _ => ?_
  refine failsOnly_bind (failsOnly_require ⟨_, _, rfl⟩) fun _ _ => ?_
  refine failsOnly_bind (failsOnly_require ⟨_, _, rfl⟩) fun _ _ => ?_
  refine failsOnly_bind (validateCsrc_failsOnly 0 b.csrc) fun _ _ => ?_
  refine failsOnly_bind (validateExtension_failsOnly b.extData b.extProfile) fun _ _ => ?_
  exact failsOnly_require ⟨_, _, rfl⟩

/-- Once validation passes, no packing step can fail. -/
theorem build_failsOnly (b : RtpBuilder) : FailsOnly IsRtpBuildError b.build := by
  intro e he
  cases hv : b.validate with
  | error e' =>
    simp only [build, hv, bind_error] at he
    cases he
    exact validate_failsOnly b _ hv
  | ok u =>
    have hok := build_eq_ok.mpr ⟨validate_eq_ok.mp hv, rfl⟩
    rw [hok] at he
    simp at he

end RtpBuilder

end Rtpkit

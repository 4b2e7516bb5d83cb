import Rtpkit.Heuristics

namespace Rtpkit

inductive MediaType
  | audio
  | video
  | audioVideo
  deriving DecidableEq, Repr

/-- One row of the table of static payload types. -/
structure PayloadTypeInfo where
  name : String
  mediaType : MediaType
  clockRate : Nat
  channels : Option Nat
  deriving DecidableEq, Repr

/-- `range(96, 128)` -/
def dynamicPayloadTypeRange : List Int := (List.range' 96 32).map Int.ofNat

def staticPayloadTypes : List (Int × PayloadTypeInfo) :=
  [(0, ⟨"PCMU", .audio, 8000, some 1⟩),
   (3, ⟨"GSM", .audio, 8000, some 1⟩),
   (4, ⟨"G723", .audio, 8000, some 1⟩),
   (5, ⟨"DVI4", .audio, 8000, some 1⟩),
   (6, ⟨"DVI4", .audio, 16000, some 1⟩),
   (7, ⟨"LPC", .audio, 8000, some 1⟩),
   (8, ⟨"PCMA", .audio, 8000, some 1⟩),
   (9, ⟨"G722", .audio, 8000, some 1⟩),
   (10, ⟨"L16", .audio, 44100, some 2⟩),
   (11, ⟨"L16", .audio, 44100, some 1⟩),
   (12, ⟨"QCELP", .audio, 8000, some 1⟩),
   (13, ⟨"CN", .audio, 8000, some 1⟩),
   (14, ⟨"MPA", .audio, 90000, none⟩),
   (15, ⟨"G728", .audio, 8000, some 1⟩),
   (16, ⟨"DVI4", .audio, 11025, some 1⟩),
   (17, ⟨"DVI4", .audio, 22050, some 1⟩),
   (18, ⟨"G729", .audio, 8000, some 1⟩),
   (25, ⟨"CelB", .video, 90000, none⟩),
   (26, ⟨"JPEG", .video, 90000, none⟩),
   (28, ⟨"nv", .video, 90000, none⟩),
   (31, ⟨"H261", .video, 90000, none⟩),
   (32, ⟨"MPV", .video, 90000, none⟩),
   (33, ⟨"MP2T", .audioVideo, 90000, none⟩),
   (34, ⟨"H263", .video, 90000, none⟩)]

def lookupPayloadType (payloadType : Int) : Option PayloadTypeInfo :=
  staticPayloadTypes.lookup payloadType

/-- A payload type with a meaning of its own or one that the session gives it. -/
def IsMediaPayloadType (payloadType : Int) : Prop :=
  (lookupPayloadType payloadType).isSome ∨ payloadType ∈ dynamicPayloadTypeRange

instance (payloadType : Int) : Decidable (IsMediaPayloadType payloadType) :=
  inferInstanceAs (Decidable (_ ∨ _))

/-- Neither the table nor the dynamic range has a payload type that RTCP could be taken for. -/
theorem IsMediaPayloadType.not_collision {payloadType : Int} (h : IsMediaPayloadType payloadType) :
    payloadType ∉ rtcpCollisionRange := by
  intro hcollision
  have hnone : ∀ t ∈ rtcpCollisionRange, ¬IsMediaPayloadType t := by decide
  exact hnone payloadType hcollision h

end Rtpkit

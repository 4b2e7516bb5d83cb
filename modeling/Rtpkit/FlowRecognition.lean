import Rtpkit.Detection
import Rtpkit.FlowMeaning
import Rtpkit.PayloadTypes
import Rtpkit.RtpRoundTrip
import Rtpkit.SerialNumber
import Mathlib.Algebra.Order.Group.Abs

namespace Rtpkit

open Outcome

/-- A sender of media, whose packets are numbered by a counter that never wraps. -/
structure MediaSender where
  ssrc : Int
  builder : Int → RtpBuilder
  valid_builder : ∀ n, (builder n).Valid
  version_builder : ∀ n, (builder n).version = 2
  ssrc_builder : ∀ n, (builder n).ssrc = ssrc
  seq_builder : ∀ n, (builder n).seq = n % 65536
  payloadType_builder : ∀ n, IsMediaPayloadType (builder n).payloadType

/-- What arrives at a port that media, reports and other traffic share. -/
inductive MuxedPayload (sender : MediaSender)
  | media (n : Int)
  | report (data : Bytes) (accepted : ∃ packets, parseRtcp data = .ok packets)
  | stray (data : Bytes) (rejected : ∃ e, parseRtp data = .error e)

namespace MuxedPayload

variable {sender : MediaSender}

def bytes : MuxedPayload sender → Bytes
  | media n => (sender.builder n).wire
  | report data _ => data
  | stray data _ => data

def number : MuxedPayload sender → Option Int
  | media n => some n
  | report _ _ => none
  | stray _ _ => none

end MuxedPayload

section Evidence

variable {sender : MediaSender}

def MediaSender.packet (sender : MediaSender) (n : Int) : RtpPacket :=
  (sender.builder n).packet (sender.builder n).wire

theorem parseRtp_media (sender : MediaSender) (n : Int) :
    parseRtp (sender.builder n).wire = .ok (sender.packet n) :=
  (RtpBuilder.parse_wire (sender.valid_builder n) true).trans
    (if_pos (.inl (sender.version_builder n)))

theorem evidence_media (sender : MediaSender) (n : Int) :
    evidence (sender.builder n).wire = some (sender.packet n) := by
  rw [evidence, parseRtp_media]
  exact if_neg (mt mem_rtcpCollisionRange.mpr (sender.payloadType_builder n).not_collision)

/-- The media are the evidence, whatever comes between them. -/
theorem evidence_bytes (p : MuxedPayload sender) :
    evidence p.bytes = p.number.map sender.packet := by
  cases p with
  | media n => exact evidence_media sender n
  | report data accepted =>
    obtain ⟨packets, hpackets⟩ := accepted
    rw [MuxedPayload.bytes, evidence]
    rcases parseRtp_of_parseRtcp hpackets with ⟨e, hparse, -⟩ | ⟨packet, hparse, hcollision⟩
    · rw [hparse]
      rfl
    · rw [hparse]
      exact if_pos (mem_rtcpCollisionRange.mp hcollision)
  | stray data rejected =>
    obtain ⟨e, he⟩ := rejected
    have hnone : evidence data = none := by rw [evidence, he]
    exact hnone

theorem evidence_flow (flow : List (MuxedPayload sender)) :
    (flow.map MuxedPayload.bytes).filterMap evidence =
      (flow.filterMap MuxedPayload.number).map sender.packet := by
  rw [List.filterMap_map, List.map_filterMap]
  exact List.filterMap_congr fun p _ => evidence_bytes p

end Evidence

section Counter

variable {ns : List Int}

theorem isChain_congr {R S T : Int → Int → Prop} (h : ∀ a b, R a b → (S a b ↔ T a b))
    (hR : ns.IsChain R) : ns.IsChain S ↔ ns.IsChain T := by
  induction ns with
  | nil => exact iff_of_true .nil .nil
  | cons a ns ih =>
    cases ns with
    | nil => exact iff_of_true (.singleton a) (.singleton a)
    | cons b ns =>
      rw [List.isChain_cons_cons] at hR
      rw [List.isChain_cons_cons, List.isChain_cons_cons, h a b hR.1, ih hR.2]

/-- Numbers that differ by at most half a cycle are as far apart as their residues are. -/
theorem circularDistance_of_near {a b : Int} (h : |b - a| ≤ 32768) :
    circularDistance (a % 65536) (b % 65536) = |b - a| := by
  have hcases := abs_cases (b - a)
  unfold circularDistance
  rw [min_def]
  split
  next => omega
  next => omega

theorem isChain_nearSequence_iff {threshold : Int} (h : ns.IsChain fun a b => |b - a| ≤ 32768) :
    (ns.map (· % 65536)).IsChain (NearSequence threshold) ↔
      ns.IsChain fun a b => |b - a| ≤ threshold := by
  rw [List.isChain_map]
  refine isChain_congr (fun a b hab => ?_) h
  rw [NearSequence, circularDistance_of_near hab]

/-- Where the steps are short, the residues stand still only when the counter does. -/
theorem exists_residues_ne_iff (h : ns.IsChain fun a b => |b - a| ≤ 32768) :
    (∃ a ∈ ns, ∃ b ∈ ns, a % 65536 ≠ b % 65536) ↔ ∃ a ∈ ns, ∃ b ∈ ns, a ≠ b := by
  constructor
  · rintro ⟨a, ha, b, hb, hne⟩
    exact ⟨a, ha, b, hb, fun hab => hne (congrArg (· % 65536) hab)⟩
  · rintro ⟨a, ha, b, hb, hne⟩
    by_contra hall
    have hsame : ∀ x ∈ ns, ∀ y ∈ ns, x % 65536 = y % 65536 := by
      intro x hx y hy
      by_contra hxy
      exact hall ⟨x, hx, y, hy, hxy⟩
    have hchain : ns.IsChain fun x y => x % 65536 = y % 65536 :=
      (List.pairwise_of_forall_mem_list hsame).isChain
    -- two in a row are equal when their residues are, and so all are equal
    have hstand : ns.IsChain fun x y => x = y := by
      refine (isChain_congr (fun x y hxy => ?_) h).mp hchain
      have hnear := abs_le.mp hxy
      omega
    have hequal := (List.isChain_iff_pairwise.mp hstand).forall_of_forall (fun x _ => rfl)
    exact hne (hequal ha hb)

end Counter

theorem looksLikeRtp_bytes {sender : MediaSender} (p : MuxedPayload sender) :
    looksLikeRtp p.bytes = .ok p.number.isSome := by
  cases p with
  | media n =>
    rw [MuxedPayload.bytes, looksLikeRtp, parseRtp_media]
    exact congrArg Except.ok (decide_eq_true (sender.payloadType_builder n).not_collision)
  | report data accepted =>
    obtain ⟨packets, hpackets⟩ := accepted
    exact looksLikeRtp_of_parseRtcp hpackets
  | stray data rejected =>
    obtain ⟨e, he⟩ := rejected
    have hfalse : looksLikeRtp data = .ok false := by
      rw [looksLikeRtp, he]
      exact if_pos (parse_failsOnly true data e he)
    exact hfalse

/-- A flow of media is recognised by its counter, across wraps and whatever reports and other
traffic share its port: there must be enough packets, no two in a row further apart than the
threshold, and not all the same. One by one, the media and nothing else look like RTP. -/
theorem flow_recognised (sender : MediaSender) (minPackets threshold : Int)
    {flow : List (MuxedPayload sender)} {ns : List Int}
    (hns : flow.filterMap MuxedPayload.number = ns)
    (hnear : ns.IsChain fun a b => |b - a| ≤ 32768) :
    (∃ c, (RtpFlowClassifier.new minPackets threshold).observeAll
        (flow.map MuxedPayload.bytes) = .ok c ∧
      c.classify.packetsObserved = flow.length ∧ c.classify.packetsParsed = ns.length ∧
      (c.classify.isLikelyRtp = true ↔ minPackets ≤ ns.length ∧
        (ns.IsChain fun a b => |b - a| ≤ threshold) ∧ ∃ a ∈ ns, ∃ b ∈ ns, a ≠ b)) ∧
    ∀ p ∈ flow, looksLikeRtp p.bytes = .ok p.number.isSome := by
  refine ⟨?_, fun p _ => looksLikeRtp_bytes p⟩
  obtain ⟨c, hc⟩ := RtpFlowClassifier.exists_observeAll
    (RtpFlowClassifier.new minPackets threshold) (flow.map MuxedPayload.bytes)
  have hobserved := RtpFlowClassifier.observeAll_packetsObserved hc
  have hjudges := (RtpFlowClassifier.observeAll_summarises hc).judges
  rw [evidence_flow, hns] at hjudges
  have hparsed : c.classify.packetsParsed = ns.length := by
    rw [hjudges.packetsParsed, List.length_map]
  have hseqs : (ns.map sender.packet).map RtpPacket.sequenceNumber = ns.map (· % 65536) := by
    rw [List.map_map]
    exact List.map_congr_left fun n _ => sender.seq_builder n
  have hssrc : c.classify.ssrcConsistent = true := by
    rw [hjudges.ssrcConsistent]
    simp only [List.forall_mem_map]
    intro m _ n _
    exact (sender.ssrc_builder m).trans (sender.ssrc_builder n).symm
  have hplausible : c.classify.sequencePlausible = true ↔
      ns.IsChain fun a b => |b - a| ≤ threshold := by
    rw [hjudges.sequencePlausible, hseqs, isChain_nearSequence_iff hnear]
  have hprogressing : c.classify.sequenceProgressing = true ↔ ∃ a ∈ ns, ∃ b ∈ ns, a ≠ b := by
    rw [hjudges.sequenceProgressing, ← exists_residues_ne_iff hnear]
    have hseq : ∀ n, (sender.packet n).sequenceNumber = n % 65536 := sender.seq_builder
    simp only [List.mem_map, exists_exists_and_eq_and, hseq]
  refine ⟨c, hc, ?_, hparsed, ?_⟩
  · rw [List.length_map] at hobserved
    exact hobserved.trans (Nat.zero_add _)
  · rw [hjudges.isLikelyRtp, hparsed, hplausible, hprogressing]
    simp only [hssrc, true_and]

def dynamicBuilder (n : Int) : RtpBuilder := { payloadType := 96, seq := n % 65536, ssrc := 7 }

theorem dynamicBuilder_valid (n : Int) : (dynamicBuilder n).Valid := by
  refine ⟨by simp [dynamicBuilder], by simp [dynamicBuilder], ?_, by simp [dynamicBuilder, u32],
    by simp [dynamicBuilder, u32], by simp [dynamicBuilder, maxCsrc], by simp [dynamicBuilder],
    by simp [dynamicBuilder], by simp [dynamicBuilder]⟩
  simp only [dynamicBuilder, u16]
  omega

def dynamicSender : MediaSender where
  ssrc := 7
  builder := dynamicBuilder
  valid_builder := dynamicBuilder_valid
  version_builder _ := rfl
  ssrc_builder _ := rfl
  seq_builder _ := rfl
  payloadType_builder _ := show IsMediaPayloadType 96 by decide

/-- Four packets around the end of a cycle, with a report and an empty datagram between them. -/
theorem flow_recognised_wrapped : ∃ c,
    RtpFlowClassifier.new.observeAll [(dynamicSender.builder 65534).wire, plainSenderReport,
      (dynamicSender.builder 65536).wire, [], (dynamicSender.builder 65535).wire,
      (dynamicSender.builder 65537).wire] = .ok c ∧
    c.classify.packetsParsed = 4 ∧ c.classify.isLikelyRtp = true := by
  have haccepted : ∃ packets, parseRtcp plainSenderReport = .ok packets := by
    have hok : (parseRtcp plainSenderReport).isOk = true := by decide +kernel
    cases hparse : parseRtcp plainSenderReport with
    | ok packets => exact ⟨packets, rfl⟩
    | error e => simp [hparse, Except.isOk, Except.toBool] at hok
  have hrejected : ∃ e, parseRtp [] = .error e := ⟨_, rfl⟩
  let flow : List (MuxedPayload dynamicSender) := [.media 65534, .report plainSenderReport haccepted,
    .media 65536, .stray [] hrejected, .media 65535, .media 65537]
  have hns : flow.filterMap MuxedPayload.number = [65534, 65536, 65535, 65537] := rfl
  obtain ⟨⟨c, hc, -, hparsed, hlikely⟩, -⟩ :=
    flow_recognised dynamicSender defaultMinPackets defaultSeqJumpThreshold hns (by decide)
  refine ⟨c, hc, hparsed, hlikely.mpr ⟨by decide, by decide, 65534, by simp, 65536, by simp, ?_⟩⟩
  decide

end Rtpkit

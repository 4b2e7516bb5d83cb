import Rtpkit.FlowClassifier
import Rtpkit.RtpTotal
import Mathlib.Data.List.Chain
import Mathlib.Data.List.Induction

namespace Rtpkit

open Outcome

/-- The packet that a payload is evidence of: what strict RTP accepts outside the collision range. -/
def evidence (data : Bytes) : Option RtpPacket :=
  match parseRtp data with
  | .error _ => none
  | .ok packet =>
    if 72 ≤ packet.payloadType ∧ packet.payloadType ≤ 76 then none else some packet

/-- The distance of two sequence numbers on the circle of 2^16 numbers. -/
def circularDistance (a b : Int) : Int := min ((b - a) % 2 ^ 16) ((a - b) % 2 ^ 16)

def NearSequence (seqJumpThreshold a b : Int) : Prop := circularDistance a b ≤ seqJumpThreshold

instance (seqJumpThreshold a b : Int) : Decidable (NearSequence seqJumpThreshold a b) :=
  inferInstanceAs (Decidable (_ ≤ _))

/-- What a classification says about the packets that count as evidence. -/
structure Judges (minPackets seqJumpThreshold : Int) (packets : List RtpPacket)
    (result : FlowClassification) : Prop where
  packetsParsed : result.packetsParsed = packets.length
  ssrcConsistent : result.ssrcConsistent = true ↔ ∀ p ∈ packets, ∀ q ∈ packets, p.ssrc = q.ssrc
  sequencePlausible : result.sequencePlausible = true ↔
    (packets.map RtpPacket.sequenceNumber).IsChain (NearSequence seqJumpThreshold)
  sequenceProgressing : result.sequenceProgressing = true ↔
    ∃ p ∈ packets, ∃ q ∈ packets, p.sequenceNumber ≠ q.sequenceNumber
  isLikelyRtp : result.isLikelyRtp = true ↔ minPackets ≤ result.packetsParsed ∧
    result.ssrcConsistent = true ∧ result.sequencePlausible = true ∧
      result.sequenceProgressing = true

theorem natAbs_wrappedDelta (a b : Int) : ((wrappedDelta a b).natAbs : Int) = circularDistance a b := by
  have hback : (a - b) % 2 ^ 16 = (-(b - a)) % 2 ^ 16 := by rw [Int.neg_sub]
  unfold circularDistance wrappedDelta
  rw [hback]
  dsimp only
  split
  next => omega
  next => omega

/-- A new last entry extends a list in which all agree when it agrees with the first. -/
theorem forall_eq_concat {α β : Type} {f : α → β} {xs : List α} {x : α} :
    (∀ y ∈ xs ++ [x], ∀ z ∈ xs ++ [x], f y = f z) ↔
      (∀ y ∈ xs, ∀ z ∈ xs, f y = f z) ∧ ∀ y ∈ xs.head?, f x = f y := by
  cases xs with
  | nil => simp
  | cons first xs =>
    constructor
    · intro h
      refine ⟨fun y hy z hz => h y (List.mem_append_left _ hy) z (List.mem_append_left _ hz), ?_⟩
      intro y hy
      exact h x (by simp) y (List.mem_append_left _ (List.mem_of_mem_head? hy))
    · rintro ⟨hall, hlast⟩ y hy z hz
      have hfirst : ∀ w ∈ first :: xs ++ [x], f w = f first := by
        intro w hw
        rcases List.mem_append.mp hw with hw | hw
        · exact hall w hw first (by simp)
        · rw [List.mem_singleton.mp hw]
          exact hlast first (by simp)
      rw [hfirst y hy, hfirst z hz]

/-- A new last entry extends a chain when its link with the last one holds. -/
theorem isChain_concat {α : Type} {R : α → α → Prop} {xs : List α} {x : α} :
    (xs ++ [x]).IsChain R ↔ xs.IsChain R ∧ ∀ y ∈ xs.getLast?, R y x := by
  rw [List.isChain_append]
  simp

theorem one_lt_card_toFinset {α : Type} [DecidableEq α] {xs : List α} :
    1 < xs.toFinset.card ↔ ∃ x ∈ xs, ∃ y ∈ xs, x ≠ y := by
  simp [Finset.one_lt_card]

namespace RtpFlowClassifier

/-- The calls of `observe` for the payloads of a flow, in arrival order. -/
def observeAll (c : RtpFlowClassifier) (payloads : List Bytes) : Except Error RtpFlowClassifier :=
  payloads.foldlM observe c

theorem observe_of_evidence_none {c : RtpFlowClassifier} {data : Bytes} (h : evidence data = none) :
    c.observe data = .ok { c with packetsObserved := c.packetsObserved + 1 } := by
  unfold evidence at h
  unfold observe
  cases hparse : parseRtp data with
  | error e => exact if_pos (parse_failsOnly true data e hparse)
  | ok packet =>
    rw [hparse] at h
    dsimp only at h ⊢
    split at h
    next hcollision => exact if_pos (mem_rtcpCollisionRange.mpr hcollision)
    next => cases h

theorem observe_of_evidence {c : RtpFlowClassifier} {data : Bytes} {packet : RtpPacket}
    (h : evidence data = some packet) :
    c.observe data =
      .ok ({ c with packetsObserved := c.packetsObserved + 1 }.addEvidence packet) := by
  unfold evidence at h
  unfold observe
  cases hparse : parseRtp data with
  | error e =>
    rw [hparse] at h
    cases h
  | ok found =>
    rw [hparse] at h
    dsimp only at h ⊢
    split at h
    next => cases h
    next hcollision =>
      cases h
      exact if_neg (mt mem_rtcpCollisionRange.mp hcollision)

theorem addEvidence_packetsObserved (c : RtpFlowClassifier) (n : Nat) (packet : RtpPacket) :
    { c with packetsObserved := n }.addEvidence packet =
      { c.addEvidence packet with packetsObserved := n } := by
  simp only [addEvidence, observeSsrc]
  cases c.ssrc with
  | none => rfl
  | some first =>
    dsimp only
    split
    next => rfl
    next => rfl

theorem foldl_addEvidence_packetsObserved (packets : List RtpPacket) (c : RtpFlowClassifier)
    (n : Nat) : packets.foldl addEvidence { c with packetsObserved := n } =
      { packets.foldl addEvidence c with packetsObserved := n } := by
  induction packets generalizing c with
  | nil => rfl
  | cons packet packets ih =>
    rw [List.foldl_cons, List.foldl_cons, addEvidence_packetsObserved, ih]

/-- Only the number of payloads and the evidence among them reach the classifier. -/
theorem observeAll_eq (c : RtpFlowClassifier) (payloads : List Bytes) :
    c.observeAll payloads = .ok { (payloads.filterMap evidence).foldl addEvidence c with
      packetsObserved := c.packetsObserved + payloads.length } := by
  induction payloads generalizing c with
  | nil =>
    rw [List.filterMap_nil, List.foldl_nil]
    rfl
  | cons data payloads ih =>
    rw [observeAll, List.foldlM_cons, List.length_cons, Nat.add_comm payloads.length,
      ← Nat.add_assoc]
    cases hdata : evidence data with
    | none =>
      rw [observe_of_evidence_none hdata, bind_ok, List.filterMap_cons_none hdata]
      refine (ih _).trans ?_
      rw [foldl_addEvidence_packetsObserved]
    | some packet =>
      rw [observe_of_evidence hdata, bind_ok, List.filterMap_cons_some hdata, List.foldl_cons,
        addEvidence_packetsObserved]
      refine (ih _).trans ?_
      rw [foldl_addEvidence_packetsObserved]

/-- The state holds what was asked for and a summary of the evidence so far. -/
structure Summarises (minPackets seqJumpThreshold : Int) (packets : List RtpPacket)
    (c : RtpFlowClassifier) : Prop where
  minPackets : c.minPackets = minPackets
  seqJumpThreshold : c.seqJumpThreshold = seqJumpThreshold
  packetsParsed : c.packetsParsed = packets.length
  ssrc : c.ssrc = packets.head?.map RtpPacket.ssrc
  ssrcConsistent : c.ssrcConsistent = true ↔ ∀ p ∈ packets, ∀ q ∈ packets, p.ssrc = q.ssrc
  lastSeq : c.lastSeq = (packets.map RtpPacket.sequenceNumber).getLast?
  sequencePlausible : c.sequencePlausible = true ↔
    (packets.map RtpPacket.sequenceNumber).IsChain (NearSequence c.seqJumpThreshold)
  distinctSeqs : c.distinctSeqs = (packets.map RtpPacket.sequenceNumber).toFinset

theorem summarises_new (minPackets seqJumpThreshold : Int) :
    Summarises minPackets seqJumpThreshold [] (new minPackets seqJumpThreshold) where
  minPackets := rfl
  seqJumpThreshold := rfl
  packetsParsed := rfl
  ssrc := rfl
  ssrcConsistent := by simp [new]
  lastSeq := rfl
  sequencePlausible := by simp [new]
  distinctSeqs := rfl

section AddEvidence

variable (c : RtpFlowClassifier) (packet : RtpPacket)

theorem addEvidence_ssrc : (c.addEvidence packet).ssrc = some (c.ssrc.getD packet.ssrc) := by
  simp only [addEvidence, observeSsrc, observeSequence]
  cases c.ssrc with
  | none => rfl
  | some first =>
    dsimp only
    split
    next => rfl
    next => rfl

theorem addEvidence_ssrcConsistent : (c.addEvidence packet).ssrcConsistent = true ↔
    c.ssrcConsistent = true ∧ ∀ first ∈ c.ssrc, packet.ssrc = first := by
  simp only [addEvidence, observeSsrc, observeSequence]
  cases c.ssrc with
  | none => simp
  | some first =>
    dsimp only
    split
    next hne => simp [hne]
    next heq => simp [not_not.mp heq]

/-- The fields that the SSRC of a packet does not touch. -/
theorem addEvidence_eq : ∃ ssrc ssrcConsistent, c.addEvidence packet =
    { c with
      packetsParsed := c.packetsParsed + 1
      ssrc := ssrc
      ssrcConsistent := ssrcConsistent }.observeSequence packet.sequenceNumber := by
  simp only [addEvidence, observeSsrc]
  cases c.ssrc with
  | none => exact ⟨_, _, rfl⟩
  | some first =>
    dsimp only
    split
    next => exact ⟨_, _, rfl⟩
    next => exact ⟨_, _, rfl⟩

theorem observeSequence_sequencePlausible (seq : Int) :
    (c.observeSequence seq).sequencePlausible = true ↔
      c.sequencePlausible = true ∧ ∀ last ∈ c.lastSeq, NearSequence c.seqJumpThreshold last seq := by
  unfold observeSequence
  cases c.lastSeq with
  | none => simp
  | some last =>
    dsimp only
    rw [natAbs_wrappedDelta]
    simp [NearSequence]

end AddEvidence

theorem Summarises.addEvidence {minPackets seqJumpThreshold : Int} {packets : List RtpPacket}
    {c : RtpFlowClassifier} (h : Summarises minPackets seqJumpThreshold packets c)
    (packet : RtpPacket) :
    Summarises minPackets seqJumpThreshold (packets ++ [packet]) (c.addEvidence packet) := by
  obtain ⟨ssrc, ssrcConsistent, heq⟩ := addEvidence_eq c packet
  have hmap : (packets ++ [packet]).map RtpPacket.sequenceNumber =
      packets.map RtpPacket.sequenceNumber ++ [packet.sequenceNumber] := by
    rw [List.map_append, List.map_singleton]
  have hssrc := addEvidence_ssrc c packet
  have hconsistent := addEvidence_ssrcConsistent c packet
  rw [h.ssrc] at hssrc hconsistent
  refine ⟨?_, ?_, ?_, ?_, ?_, ?_, ?_, ?_⟩
  · rw [heq]
    exact h.minPackets
  · rw [heq]
    exact h.seqJumpThreshold
  · rw [heq, List.length_append]
    exact congrArg (· + 1) h.packetsParsed
  · rw [hssrc, List.head?_append]
    cases packets.head? with
    | none => rfl
    | some first => rfl
  · rw [hconsistent, h.ssrcConsistent, forall_eq_concat]
    simp
  · rw [heq, hmap, List.getLast?_concat]
    rfl
  · rw [heq, observeSequence_sequencePlausible, hmap, isChain_concat]
    exact and_congr h.sequencePlausible (by rw [← h.lastSeq]; rfl)
  · rw [heq, hmap, List.toFinset_append, List.toFinset_cons, List.toFinset_nil,
      Finset.union_insert, Finset.union_empty, ← h.distinctSeqs]
    rfl

theorem summarises_foldl (minPackets seqJumpThreshold : Int) (packets : List RtpPacket) :
    Summarises minPackets seqJumpThreshold packets
      (packets.foldl addEvidence (new minPackets seqJumpThreshold)) := by
  induction packets using List.reverseRecOn with
  | nil => exact summarises_new minPackets seqJumpThreshold
  | append_singleton packets packet ih =>
    rw [List.foldl_append]
    exact ih.addEvidence packet

theorem Summarises.judges {minPackets seqJumpThreshold : Int} {packets : List RtpPacket}
    {c : RtpFlowClassifier} (h : Summarises minPackets seqJumpThreshold packets c) :
    Judges minPackets seqJumpThreshold packets c.classify where
  packetsParsed := h.packetsParsed
  ssrcConsistent := h.ssrcConsistent
  sequencePlausible := by
    rw [← h.seqJumpThreshold]
    exact h.sequencePlausible
  sequenceProgressing := by
    simp [classify, h.distinctSeqs, one_lt_card_toFinset]
  isLikelyRtp := by
    simp [classify, h.minPackets, and_assoc]

/-- What has been found against a flow is not forgotten. -/
theorem foldl_addEvidence_mono (c : RtpFlowClassifier) (packets : List RtpPacket) :
    (c.ssrcConsistent = false → (packets.foldl addEvidence c).ssrcConsistent = false) ∧
      (c.sequencePlausible = false → (packets.foldl addEvidence c).sequencePlausible = false) := by
  induction packets generalizing c with
  | nil => exact ⟨id, id⟩
  | cons packet packets ih =>
    obtain ⟨hconsistent, hplausible⟩ := ih (c.addEvidence packet)
    refine ⟨fun h => hconsistent ?_, fun h => hplausible ?_⟩
    · rw [← Bool.not_eq_true, addEvidence_ssrcConsistent, h]
      simp
    · obtain ⟨ssrc, ssrcConsistent, heq⟩ := addEvidence_eq c packet
      rw [← Bool.not_eq_true, heq, observeSequence_sequencePlausible, h]
      simp

section Run

variable {c c' : RtpFlowClassifier} {payloads payloads' : List Bytes}

theorem exists_observeAll (c : RtpFlowClassifier) (payloads : List Bytes) :
    ∃ c', c.observeAll payloads = .ok c' :=
  ⟨_, observeAll_eq c payloads⟩

theorem observeAll_mono (h : c.observeAll payloads = .ok c') :
    (c.ssrcConsistent = false → c'.ssrcConsistent = false) ∧
      (c.sequencePlausible = false → c'.sequencePlausible = false) := by
  rw [observeAll_eq] at h
  cases h
  exact foldl_addEvidence_mono c _

theorem observeAll_packetsObserved (h : c.observeAll payloads = .ok c') :
    c'.packetsObserved = c.packetsObserved + payloads.length := by
  rw [observeAll_eq] at h
  cases h
  rfl

theorem observeAll_summarises {minPackets seqJumpThreshold : Int}
    (h : (new minPackets seqJumpThreshold).observeAll payloads = .ok c) :
    Summarises minPackets seqJumpThreshold (payloads.filterMap evidence) c := by
  have hfold := summarises_foldl minPackets seqJumpThreshold (payloads.filterMap evidence)
  rw [observeAll_eq] at h
  cases h
  exact ⟨hfold.minPackets, hfold.seqJumpThreshold, hfold.packetsParsed, hfold.ssrc,
    hfold.ssrcConsistent, hfold.lastSeq, hfold.sequencePlausible, hfold.distinctSeqs⟩

/-- Payloads that are no evidence can come and go: only their number is told. -/
theorem classify_of_same_evidence {start : RtpFlowClassifier}
    (heq : payloads'.filterMap evidence = payloads.filterMap evidence)
    (h : start.observeAll payloads = .ok c) (h' : start.observeAll payloads' = .ok c') :
    c'.classify =
      { c.classify with packetsObserved := start.packetsObserved + payloads'.length } := by
  rw [observeAll_eq] at h h'
  rw [heq] at h'
  cases h
  cases h'
  rfl

end Run

/-- The verdict on a flow is a property of the evidence in it, in its order; what is no evidence
is only counted, and what has been found against the flow stays. -/
theorem classify_meaning (minPackets seqJumpThreshold : Int) (payloads : List Bytes) :
    ∃ c, (new minPackets seqJumpThreshold).observeAll payloads = .ok c ∧
      c.classify.packetsObserved = payloads.length ∧
      Judges minPackets seqJumpThreshold (payloads.filterMap evidence) c.classify ∧
      (∀ payloads' : List Bytes, payloads'.filterMap evidence = payloads.filterMap evidence →
        ∃ c', (new minPackets seqJumpThreshold).observeAll payloads' = .ok c' ∧
          c'.classify = { c.classify with packetsObserved := payloads'.length }) ∧
      ∀ more, ∃ c', c.observeAll more = .ok c' ∧
        (c.classify.ssrcConsistent = false → c'.classify.ssrcConsistent = false) ∧
        (c.classify.sequencePlausible = false → c'.classify.sequencePlausible = false) := by
  obtain ⟨c, hc⟩ := exists_observeAll (new minPackets seqJumpThreshold) payloads
  have hobserved := observeAll_packetsObserved hc
  refine ⟨c, hc, hobserved.trans (Nat.zero_add _), (observeAll_summarises hc).judges, ?_, ?_⟩
  · intro payloads' heq
    obtain ⟨c', hc'⟩ := exists_observeAll (new minPackets seqJumpThreshold) payloads'
    have hsame := classify_of_same_evidence heq hc hc'
    rw [show (new minPackets seqJumpThreshold).packetsObserved = 0 from rfl, Nat.zero_add] at hsame
    exact ⟨c', hc', hsame⟩
  · intro more
    obtain ⟨c', hc'⟩ := exists_observeAll c more
    exact ⟨c', hc', observeAll_mono hc'⟩

end RtpFlowClassifier

end Rtpkit

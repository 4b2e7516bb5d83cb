import Rtpkit.RtcpPacketWire
import Rtpkit.RtcpParser
import Mathlib.Data.Nat.Bitwise

namespace Rtpkit

open Outcome Chunk

theorem ReportBlock.Buildable.fractionLost_of_flcl {rb : ReportBlock} (h : rb.Buildable) :
    (((rb.flcl >>> 24) &&& 0xFF : Nat) : Int) = rb.fractionLost := by
  have hfl := h.fractionLost
  simp only [u8] at hfl
  rw [rb.flcl_eq, Nat.shiftRight_eq_div_pow, show 0xFF = 2 ^ 8 - 1 from rfl,
    Nat.and_two_pow_sub_one_eq_mod]
  omega

/-- The sign bit of a 24-bit number. -/
theorem and_signBit {n : Nat} (h : n < 2 ^ 24) : n &&& 0x800000 ≠ 0 ↔ 2 ^ 23 ≤ n := by
  rw [show 0x800000 = 2 ^ 23 from rfl, Nat.and_two_pow, Nat.testBit_eq_decide_div_mod_eq]
  simp
  omega

theorem ReportBlock.Buildable.cumulativeLost_of_flcl {rb : ReportBlock} (h : rb.Buildable) :
    (if (rb.flcl &&& 0xFFFFFF) &&& 0x800000 ≠ 0
      then ((rb.flcl &&& 0xFFFFFF : Nat) : Int) - 0x1000000
      else ((rb.flcl &&& 0xFFFFFF : Nat) : Int)) = rb.cumulativeLost := by
  have hcl := h.cumulativeLost
  simp only [i24Min, i24Max] at hcl
  have hlow : rb.flcl &&& 0xFFFFFF = (rb.cumulativeLost % 0x1000000).toNat := by
    rw [rb.flcl_eq, show 0xFFFFFF = 2 ^ 24 - 1 from rfl, Nat.and_two_pow_sub_one_eq_mod]
    omega
  rw [hlow]
  have hsign := and_signBit (n := (rb.cumulativeLost % 0x1000000).toNat) (by omega)
  split
  next hs => have := hsign.mp hs; omega
  next hs => have := mt hsign.mpr hs; omega

theorem parseReportBlock_of_standsAt {rb : ReportBlock} {data : Bytes} {off : Nat}
    (hb : rb.Buildable) (h : StandsAt data off rb.wire) : parseReportBlock data off = .ok rb := by
  simp only [ReportBlock.wire, standsAt_append, Fmt.length_wire, Fmt.size_I, Nat.add_assoc] at h
  obtain ⟨hs, hf, he, hj, hl, hd⟩ := h
  obtain ⟨ssrc, rs, es⟩ := unpackFrom_of_standsAt hb.ssrc hs
  obtain ⟨word, rf, ef⟩ := unpackFrom_of_standsAt rb.flcl_fits hf
  obtain ⟨highest, re, ee⟩ := unpackFrom_of_standsAt hb.extendedHighestSequence he
  obtain ⟨jitter, rj, ej⟩ := unpackFrom_of_standsAt hb.jitter hj
  obtain ⟨lastSr, rl, el⟩ := unpackFrom_of_standsAt hb.lastSr hl
  obtain ⟨dlsr, rd, ed⟩ := unpackFrom_of_standsAt hb.delaySinceLastSr hd
  cases Int.ofNat.inj ef
  simp only [parseReportBlock, rs, rf, re, rj, rl, rd, bind_ok, es, ee, ej, el, ed,
    hb.fractionLost_of_flcl, hb.cumulativeLost_of_flcl]
  rfl

theorem length_flatten_blocks (blocks : List ReportBlock) :
    (blocks.map ReportBlock.wire).flatten.length = blocks.length * reportBlockSize := by
  induction blocks with
  | nil => rfl
  | cons rb blocks ih =>
    simp only [List.map_cons, List.flatten_cons, List.length_append, ih, ReportBlock.length_wire,
      List.length_cons, reportBlockSize]
    omega

theorem parseReportBlocks_of_standsAt {blocks : List ReportBlock} {data : Bytes}
    (hb : ∀ rb ∈ blocks, rb.Buildable)
    (h : StandsAt data 0 (blocks.map ReportBlock.wire).flatten) :
    parseReportBlocks data blocks.length = .ok blocks := by
  have hle := h.le_length
  rw [length_flatten_blocks] at hle
  have heach : ∀ i (hi : i < blocks.length),
      parseReportBlock data (i * reportBlockSize) = .ok blocks[i] := by
    intro i hi
    apply parseReportBlock_of_standsAt (hb _ (List.getElem_mem hi))
    have hwidth : ∀ c ∈ blocks.map ReportBlock.wire, c.length = reportBlockSize := by
      intro c hc
      obtain ⟨rb, _, rfl⟩ := List.mem_map.mp hc
      exact rb.length_wire
    have hi' : i < (blocks.map ReportBlock.wire).length := by simpa using hi
    simpa using h.trans (standsAt_flatten hwidth hi')
  simp only [parseReportBlocks]
  rw [require_pos (by omega), bind_ok, mapM_eq_ok]
  apply List.forall₂_iff_get.mpr
  refine ⟨by simp, ?_⟩
  intro i h₁ h₂
  simpa using heach i h₂

theorem parseSr_of_standsAt {pkt : SenderReport} {content : Bytes}
    (hb : (RtcpPacket.senderReport pkt).BodyBuildable)
    (h : StandsAt content 0 (RtcpPacket.senderReport pkt).body) :
    parseSr content pkt.reportBlocks.length pkt.paddingSize = .ok pkt := by
  obtain ⟨hs, hi, _, hblocks⟩ := hb
  have hle := h.le_length
  simp only [RtcpPacket.body, SenderInfo.wire, standsAt_append, Fmt.length_wire, Fmt.size_I,
    Nat.zero_add, List.length_append, Nat.add_assoc] at h hle
  obtain ⟨h0, ⟨h1, h2, h3, h4, h5⟩, h6⟩ := h
  obtain ⟨ssrc, r0, e0⟩ := unpackFrom_of_standsAt hs h0
  obtain ⟨ntpSec, r1, e1⟩ := unpackFrom_of_standsAt hi.ntpSeconds h1
  obtain ⟨ntpFrac, r2, e2⟩ := unpackFrom_of_standsAt hi.ntpFraction h2
  obtain ⟨rtpTs, r3, e3⟩ := unpackFrom_of_standsAt hi.rtpTimestamp h3
  obtain ⟨pktCnt, r4, e4⟩ := unpackFrom_of_standsAt hi.packetCount h4
  obtain ⟨octCnt, r5, e5⟩ := unpackFrom_of_standsAt hi.octetCount h5
  have hrest := parseReportBlocks_of_standsAt hblocks
    (StandsAt.in_slice (a := 24) (i := 0) (b := content.length) h6 h6.le_length)
  simp only [parseSr]
  rw [require_pos (by omega)]
  simp only [bind_ok, r0, r1, r2, r3, r4, r5, hrest, e0, e1, e2, e3, e4, e5]
  rfl

theorem parseRr_of_standsAt {pkt : ReceiverReport} {content : Bytes}
    (hb : (RtcpPacket.receiverReport pkt).BodyBuildable)
    (h : StandsAt content 0 (RtcpPacket.receiverReport pkt).body) :
    parseRr content pkt.reportBlocks.length pkt.paddingSize = .ok pkt := by
  obtain ⟨hs, _, hblocks⟩ := hb
  have hle := h.le_length
  simp only [RtcpPacket.body, standsAt_append, Fmt.length_wire, Fmt.size_I, Nat.zero_add,
    List.length_append] at h hle
  obtain ⟨ssrc, r0, e0⟩ := unpackFrom_of_standsAt hs h.1
  have hrest := parseReportBlocks_of_standsAt hblocks
    (StandsAt.in_slice (a := 4) (i := 0) (b := content.length) h.2 h.2.le_length)
  simp only [parseRr]
  rw [require_pos (by omega)]
  simp only [bind_ok, r0, hrest, e0]
  rfl

end Rtpkit

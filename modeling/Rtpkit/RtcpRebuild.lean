import Rtpkit.RtcpRejects

namespace Rtpkit

open Outcome

theorem nameAscii_of_buildable {pkt : RtcpPacket} (h : pkt.BodyBuildable) : pkt.NameAscii := by
  cases pkt with
  | applicationDefined app =>
    obtain ⟨-, ⟨name, hname, -⟩, -⟩ := h
    unfold encodeAscii at hname
    split at hname
    next hall => exact hall
    next => simp at hname
  | senderReport _ => trivial
  | receiverReport _ => trivial
  | sourceDescription _ => trivial
  | goodbye _ => trivial

/-- The builder takes back what the strict parser returned, but for its two stricter checks. -/
theorem buildRtcp_accepts_iff {data : Bytes} {packets : List RtcpPacket}
    (hparse : parseRtcp data = .ok packets) :
    ((∃ image, buildRtcp packets = .ok image) ↔
      (∀ pkt ∈ packets, pkt.paddingSize % 4 = 0) ∧
      ∀ app, RtcpPacket.applicationDefined app ∈ packets →
        app.name.toList.all isAscii = true) ∧
    FailsOnly IsRtcpBuildError (buildRtcp packets) := by
  obtain ⟨_, _, hloop⟩ := bind_eq_ok.mp hparse
  have heach := parseLoop_each_buildable hloop
  refine ⟨?_, ?_⟩
  · rw [← nameAscii_iff]
    constructor
    · rintro ⟨image, himage⟩
      have hall := (buildRtcp_eq_ok.mp himage).1
      exact ⟨fun pkt hp => (hall pkt hp).paddingAligned,
        fun pkt hp => nameAscii_of_buildable (hall pkt hp).body⟩
    · rintro ⟨hpad, hascii⟩
      exact ⟨_, buildRtcp_eq_ok.mpr
        ⟨fun pkt hp => (heach pkt hp (hpad pkt hp) (hascii pkt hp)).1, rfl⟩⟩
  · intro e he
    obtain ⟨before, pkt, after, rfl, -, hfail⟩ := buildRtcp_eq_error.mp he
    refine buildOne_failsOnly (fun hover => ?_) e hfail
    have hbuildable := (heach pkt (by simp) hover.1.paddingAligned
      (nameAscii_of_buildable hover.1.body)).1
    exact (RtcpPacket.buildable_iff.mp hbuildable).2 hover

theorem buildRtcp_accepts_iff_bye :
    ((∃ image, buildRtcp [.goodbye ⟨[7], none, 4⟩] = .ok image) ↔
      (∀ pkt ∈ [RtcpPacket.goodbye ⟨[7], none, 4⟩], pkt.paddingSize % 4 = 0) ∧
      ∀ app, RtcpPacket.applicationDefined app ∈ [RtcpPacket.goodbye ⟨[7], none, 4⟩] →
        app.name.toList.all isAscii = true) ∧
    FailsOnly IsRtcpBuildError (buildRtcp [.goodbye ⟨[7], none, 4⟩]) :=
  @buildRtcp_accepts_iff [161, 203, 0, 2, 0, 0, 0, 7, 9, 9, 9, 4] _ (by decide +kernel)

/-- A padding count of 1, and an APP name with a byte outside ASCII. -/
theorem buildRtcp_rejects_parsed :
    (∃ e, parseRtcp [160, 203, 0, 1, 0, 0, 0, 1] = .ok [.goodbye ⟨[], some [], 1⟩] ∧
      buildRtcp [.goodbye ⟨[], some [], 1⟩] = .error e) ∧
    ∃ packets e, parseRtcp [128, 204, 0, 2, 0, 0, 0, 7, 255, 65, 65, 65] = .ok packets ∧
      buildRtcp packets = .error e := by
  refine ⟨⟨.rtcpBuildError "padding_size" "must be a multiple of 4, got 1", ?_⟩,
    ⟨[.applicationDefined ⟨0, 7, "\uFFFDAAA", [], 0⟩],
      .rtcpBuildError "name" "must be ASCII, got '\uFFFDAAA'", ?_⟩⟩
  · decide +kernel
  · decide +kernel

end Rtpkit

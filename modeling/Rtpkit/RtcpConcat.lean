import Rtpkit.FramingVisits
import Rtpkit.RtcpFraming

namespace Rtpkit

open Outcome

theorem parseCompound_eq_run (strict : Bool) {data : Bytes} (h : headerSize ≤ data.length) :
    parseCompound strict data = (rtcpFraming.run strict () data).toExcept := by
  rw [parseCompound, require_pos h, bind_ok, parseLoop_eq_run, List.drop_zero]

/-- In strict mode the length check of the whole buffer is that of the first packet. -/
theorem parseRtcp_eq_run {data : Bytes} (hne : data ≠ []) :
    parseRtcp data = (rtcpFraming.run true () data).toExcept := by
  by_cases h : headerSize ≤ data.length
  · exact parseCompound_eq_run true h
  · have hhead : rtcpFraming.head () data = .cut (.rtcpBufferTooShort headerSize data.length) := by
      rw [rtcpFraming_head, rtcpHead, if_pos (by omega)]
    rw [parseRtcp, parseCompound, require_neg h, bind_error, Framing.run_cut hne hhead]
    rfl

theorem headerSize_le_of_parseRtcp {data : Bytes} {packets : List RtcpPacket}
    (h : parseRtcp data = .ok packets) : headerSize ≤ data.length := by
  obtain ⟨_, hlen, -⟩ := bind_eq_ok.mp h
  exact require_eq_ok.mp hlen

/-- Data that strict mode accepts is a sequence of whole packets. -/
theorem exists_reads_of_parseRtcp {data : Bytes} {packets : List RtcpPacket}
    (h : parseRtcp data = .ok packets) :
    ∃ frames, rtcpFraming.Reads () data frames () ∧ frames.filterMap Frame.item = packets := by
  rw [parseRtcp, parseCompound_eq_run true (headerSize_le_of_parseRtcp h), Yielded.toExcept_eq_ok] at h
  obtain ⟨frames, last, hreads⟩ := Framing.exists_reads (congrArg Yielded.failure h)
  have hrun := hreads.run_eq true
  rw [h] at hrun
  exact ⟨frames, hreads, (congrArg Yielded.items hrun).symm⟩

theorem exists_parseRtcpLenient {data : Bytes} (h : headerSize ≤ data.length) :
    ∃ packets, parseRtcpLenient data = .ok packets := by
  have htotal := Framing.run_lenient_total (F := rtcpFraming)
    (fun _ rest e _ => rtcpHead_ne_fatal rest e) () data
  refine ⟨(rtcpFraming.run false () data).items, ?_⟩
  rw [parseRtcpLenient, parseCompound_eq_run false h, Yielded.toExcept_eq_ok, ← htotal]

/-- Parsing what follows an accepted compound goes on as if it stood alone. -/
theorem parseRtcp_append {a b : Bytes} {packets : List RtcpPacket}
    (ha : parseRtcp a = .ok packets) :
    (b ≠ [] →
      (∀ more, parseRtcp b = .ok more → parseRtcp (a ++ b) = .ok (packets ++ more)) ∧
      ∀ e, parseRtcp b = .error e → parseRtcp (a ++ b) = .error e) ∧
    (4 ≤ b.length → ∃ more, parseRtcpLenient a = .ok packets ∧ parseRtcpLenient b = .ok more ∧
      parseRtcpLenient (a ++ b) = .ok (packets ++ more)) := by
  have hlen := headerSize_le_of_parseRtcp ha
  have happ : headerSize ≤ (a ++ b).length := by
    rw [List.length_append]
    omega
  obtain ⟨frames, hreads, hitems⟩ := exists_reads_of_parseRtcp ha
  have hrun : ∀ strict, parseCompound strict (a ++ b) =
      (packets ++ ·) <$> (rtcpFraming.run strict () b).toExcept := by
    intro strict
    rw [parseCompound_eq_run strict happ, hreads.run_append, hitems, Yielded.toExcept_prepend]
  refine ⟨fun hne => ?_, fun hb => ?_⟩
  · have hstrict : parseRtcp (a ++ b) = (packets ++ ·) <$> parseRtcp b := by
      rw [parseRtcp_eq_run hne]
      exact hrun true
    refine ⟨fun more hmore => ?_, fun e he => ?_⟩
    · rw [hstrict, hmore]
      rfl
    · rw [hstrict, he]
      rfl
  · obtain ⟨more, hmore⟩ := exists_parseRtcpLenient hb
    refine ⟨more, ?_, hmore, ?_⟩
    · rw [parseRtcpLenient, parseCompound_eq_run false hlen, hreads.run_eq, hitems]
      rfl
    · rw [parseRtcpLenient, hrun false, ← parseCompound_eq_run false hb]
      rw [parseRtcpLenient] at hmore
      rw [hmore]
      rfl

theorem parseRtcp_append_bye :
    parseRtcp ([128, 203, 0, 0] ++ [129, 203, 0, 1, 0, 0, 0, 7]) =
      .ok ([.goodbye ⟨[], none, 0⟩] ++ [.goodbye ⟨[7], none, 0⟩]) :=
  ((@parseRtcp_append [128, 203, 0, 0] _ _ (by decide +kernel)).1 (by decide)).1 _
    (by decide +kernel)

end Rtpkit

import Rtpkit.LenientRefines

namespace Rtpkit

open Outcome

/-- The data is a sequence of frames from `off` on, and what a reader gets of the data cut off
at `k` are the items of the frames that end at or before `k`. -/
structure CutsCleanly {σ α : Type} (F : Framing σ UInt8 α Error) (s : σ) (data : Bytes)
    (off minimum : Nat) (items : List α) (readCut : Bytes → Except Error (List α))
    (frames : List (Frame UInt8 α)) : Prop where
  reads : ∃ last, F.Reads s (data.drop off) frames last
  bytes : data = data.take off ++ (frames.map Frame.bytes).flatten
  items : frames.filterMap Frame.item = items
  cut : ∀ k, minimum ≤ k → readCut (data.take k) = .ok (Frame.within k off frames)

theorem cutsCleanly_of_run {σ α : Type} {F : Framing σ UInt8 α Error} {s : σ} {data : Bytes}
    {off minimum : Nat} {items : List α} {readCut : Bytes → Except Error (List α)}
    (hrun : F.run true s (data.drop off) = ⟨items, none⟩) (hoff : off ≤ minimum)
    (hcut : ∀ k, minimum ≤ k →
      readCut (data.take k) = (F.run false s ((data.take k).drop off)).toExcept) :
    ∃ frames, CutsCleanly F s data off minimum items readCut frames := by
  obtain ⟨frames, last, hreads⟩ := Framing.exists_reads (congrArg Yielded.failure hrun)
  refine ⟨frames, ⟨last, hreads⟩, ?_, ?_, ?_⟩
  · rw [hreads.flatten_bytes, List.take_append_drop]
  · have hitems := hreads.run_eq true
    rw [hrun] at hitems
    exact (congrArg Yielded.items hitems).symm
  · intro k hk
    rw [hcut k hk, List.drop_take, hreads.run_take off k (by omega)]
    rfl

theorem rtcp_cutsCleanly {data : Bytes} {packets : List RtcpPacket}
    (h : parseRtcp data = .ok packets) :
    ∃ frames, CutsCleanly rtcpFraming () data 0 4 packets parseRtcpLenient frames := by
  have hlen := headerSize_le_of_parseRtcp h
  rw [parseRtcp, parseCompound_eq_run true hlen, Yielded.toExcept_eq_ok] at h
  refine cutsCleanly_of_run h (by omega) fun k hk => parseCompound_eq_run false ?_
  simp only [headerSize] at hlen ⊢
  rw [List.length_take]
  omega

theorem pcap_cutsCleanly {data : Bytes} {packets : List PcapPacket}
    (h : (readPcap data).toExcept = .ok packets) :
    ∃ format frames, readGlobalHeader data = .ok format ∧
      CutsCleanly (pcapFraming format) () data 24 24 packets
        (fun cut => (readPcapLenient cut).toExcept) frames := by
  rw [Yielded.toExcept_eq_ok] at h
  cases hhdr : readGlobalHeader data with
  | error e =>
    rw [readPcap, readPcapMode_error true hhdr] at h
    cases h
  | ok format =>
    rw [readPcap, readPcapMode_eq_run true hhdr] at h
    have hlen := require_eq_ok.mp (bind_eq_ok.mp hhdr).choose_spec.1
    simp only [globalHeaderSize] at hlen
    have hclean : ∃ frames, CutsCleanly (pcapFraming format) () data 24 24 packets
        (fun cut => (readPcapLenient cut).toExcept) frames := by
      refine cutsCleanly_of_run h (Nat.le_refl 24) fun k hk => ?_
      have hcutHdr : readGlobalHeader (data.take k) = .ok format := by
        have happ := readGlobalHeader_append_left (x := data.take k)
          (by rw [List.length_take]; simp only [globalHeaderSize]; omega) (data.drop k)
        rw [List.take_append_drop] at happ
        rw [← happ, hhdr]
      rw [readPcapLenient, readPcapMode_eq_run false hcutHdr]
      rfl
    obtain ⟨frames, hframes⟩ := hclean
    exact ⟨format, frames, rfl, hframes⟩

theorem pcapng_cutsCleanly {data : Bytes} {packets : List PcapPacket}
    (h : (readPcapng data).toExcept = .ok packets) :
    ∃ frames, CutsCleanly pcapngFraming { order := none, interfaces := [] } data 0 12 packets
      (fun cut => (readPcapngLenient cut).toExcept) frames := by
  rw [Yielded.toExcept_eq_ok] at h
  by_cases hlen : minBlockSize ≤ data.length
  · rw [readPcapng, readPcapngMode_eq_run true hlen] at h
    refine cutsCleanly_of_run h (by omega) fun k hk => ?_
    rw [readPcapngLenient, readPcapngMode_eq_run false]
    · rfl
    · simp only [minBlockSize, blockHeaderSize, blockTrailerSize] at hlen ⊢
      rw [List.length_take]
      omega
  · rw [readPcapng, readPcapngMode, if_pos (by omega)] at h
    cases h

/-- A file that is cut off anywhere after its header loses only what does not end within it. -/
theorem truncation_loses_tail (data : Bytes) :
    (∀ packets, parseRtcp data = .ok packets →
      ∃ frames, CutsCleanly rtcpFraming () data 0 4 packets parseRtcpLenient frames) ∧
    (∀ packets, (readPcap data).toExcept = .ok packets →
      ∃ format frames, readGlobalHeader data = .ok format ∧
        CutsCleanly (pcapFraming format) () data 24 24 packets
          (fun cut => (readPcapLenient cut).toExcept) frames) ∧
    (∀ packets, (readPcapng data).toExcept = .ok packets →
      ∃ frames, CutsCleanly pcapngFraming { order := none, interfaces := [] } data 0 12 packets
        (fun cut => (readPcapngLenient cut).toExcept) frames) :=
  ⟨fun _ => rtcp_cutsCleanly, fun _ => pcap_cutsCleanly, fun _ => pcapng_cutsCleanly⟩

end Rtpkit

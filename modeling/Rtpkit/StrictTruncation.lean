import Rtpkit.FramingUnits
import Rtpkit.Truncation

namespace Rtpkit

open Outcome

/-- The data is a head and frames, and what a strict reader does with it when it is cut off: at the
end of a frame it reads the frames before, and inside a frame it then raises what is `torn`
between the length of the frame and the length that is left of it. -/
structure TearsLoudly {α : Type} (data front : Bytes) (items : List α)
    (reads : Bytes → Yielded α Error → Prop) (torn : Nat → Nat → Error)
    (frames : List (Frame UInt8 α)) : Prop where
  bytes : data = front ++ (frames.map Frame.bytes).flatten
  items : frames.filterMap Frame.item = items
  whole : ∀ before after, frames = before ++ after →
    front ++ (before.map Frame.bytes).flatten ≠ [] →
    reads (front ++ (before.map Frame.bytes).flatten) ⟨before.filterMap Frame.item, none⟩
  torn : ∀ before f after, frames = before ++ f :: after →
    ∀ r, 0 < r → r < f.bytes.length →
      reads (front ++ (before.map Frame.bytes).flatten ++ f.bytes.take r)
        ⟨before.filterMap Frame.item, some (torn f.bytes.length r)⟩

theorem tearsLoudly_of_run {σ α : Type} {F : Framing σ UInt8 α Error} {s : σ}
    {data front : Bytes} {items : List α} {reads : Bytes → Yielded α Error → Prop}
    {torn : Nat → Nat → Error} {rest : Bytes} (hdata : data = front ++ rest)
    (hrun : F.run true s rest = ⟨items, none⟩)
    (hreads : ∀ rest, front ++ rest ≠ [] → reads (front ++ rest) (F.run true s rest))
    (htorn : ∀ s' u next item r e, F.head s' u = .unit u.length next none item → 0 < r →
      r < u.length → F.head s' (u.take r) = .cut e → e = torn u.length r) :
    ∃ frames, TearsLoudly data front items reads torn frames := by
  obtain ⟨frames, last, hframes⟩ := Framing.exists_reads (congrArg Yielded.failure hrun)
  refine ⟨frames, ?_, ?_, ?_, ?_⟩
  · rw [hdata, hframes.flatten_bytes]
  · have hitems := hframes.run_eq true
    rw [hrun] at hitems
    exact (congrArg Yielded.items hitems).symm
  · rintro before after rfl hne
    obtain ⟨mid, hbefore, -⟩ := hframes.split
    rw [← hbefore.run_eq true]
    exact hreads _ hne
  · rintro before f after rfl r hpos hlt
    obtain ⟨-, s', next, hhead, hcut⟩ := hframes.run_torn
    obtain ⟨e, htake, hrest⟩ := hcut r hpos hlt
    rw [← htorn s' f.bytes next f.item r e hhead hpos hlt htake, ← hrest, List.append_assoc]
    apply hreads
    simp only [ne_eq, List.append_eq_nil_iff, not_and]
    intro _ _ htake
    have hlen := congrArg List.length htake
    rw [List.length_take, List.length_nil] at hlen
    omega

/-- What strict mode says of an RTCP packet of `declared` bytes of which `r` are left. -/
def rtcpTorn (declared r : Nat) : Error :=
  if r < 4 then .rtcpBufferTooShort 4 r else .rtcpLengthMismatch declared r

def pcapTorn (declared r : Nat) : Error :=
  if r < 16 then .pcapBufferTooShort 16 r else .pcapTruncatedRecord (declared - 16) (r - 16)

def pcapngTorn (declared r : Nat) : Error :=
  if r < 12 then .pcapngBufferTooShort 12 r
  else .pcapngMalformedBlock s!"block declares {declared} bytes, unavailable"

section Torn

variable {u : Bytes} {r : Nat} {e : Error}

theorem rtcpTorn_of_cut {next : Unit} {item : Option RtcpPacket}
    (hunit : rtcpHead u = .unit u.length next none item) (hlt : r < u.length)
    (hcut : rtcpHead (u.take r) = .cut e) : e = rtcpTorn u.length r := by
  obtain ⟨hdr, hroom, hhdr, hsize, -, -, hobjection⟩ := rtcpHead_eq_unit.mp hunit
  have hlen : (u.take r).length = r := by
    rw [List.length_take]
    omega
  have hversion : hdr.version = 2 := by
    by_contra hne
    rw [rtcpObjection, if_pos hne] at hobjection
    cases hobjection
  unfold rtcpHead at hcut
  unfold rtcpTorn
  rw [hlen] at hcut
  split at hcut
  next hshort =>
    simp only [headerSize] at hshort hcut
    rw [if_pos hshort]
    exact (Head.cut.inj hcut).symm
  next hroom' =>
    have hfront := readHeader_append_left (x := u.take r) (by omega) (u.drop r)
    rw [List.take_append_drop, hhdr] at hfront
    simp only [headerSize] at hroom'
    rw [← hfront] at hcut
    dsimp only at hcut
    rw [if_pos (by omega), if_neg (by simpa using hversion), hsize] at hcut
    rw [if_neg hroom']
    exact (Head.cut.inj hcut).symm

theorem pcapTorn_of_cut {format : PcapFormat} {next : Unit} {item : Option PcapPacket}
    (hunit : pcapHead format u = .unit u.length next none item) (hlt : r < u.length)
    (hcut : pcapHead format (u.take r) = .cut e) : e = pcapTorn u.length r := by
  obtain ⟨hdr, hroom, hhdr, hsize, -⟩ := pcapHead_eq_unit.mp hunit
  have hlen : (u.take r).length = r := by
    rw [List.length_take]
    omega
  unfold pcapHead at hcut
  unfold pcapTorn
  rw [hlen] at hcut
  split at hcut
  next hshort =>
    simp only [recordHeaderSize] at hshort hcut
    rw [if_pos hshort]
    exact (Head.cut.inj hcut).symm
  next hroom' =>
    have hheader : recordHeaderSize ≤ (u.take r).length := by omega
    have hfront : readRecordHeader format.order (u.take r ++ u.drop r) 0 =
        readRecordHeader format.order (u.take r) 0 := readRecordHeader_append_left hheader _
    rw [List.take_append_drop, hhdr] at hfront
    rw [← hfront] at hcut
    dsimp only at hcut
    rw [if_pos (by omega)] at hcut
    simp only [recordHeaderSize] at hroom' hsize
    have hdeclared : u.length - 16 = hdr.inclLen := by omega
    rw [if_neg hroom', hdeclared]
    exact (Head.cut.inj hcut).symm

theorem pcapngTorn_of_cut {state next : PcapngState} {item : Option PcapPacket}
    (hunit : pcapngHead state u = .unit u.length next none item) (hlt : r < u.length)
    (hcut : pcapngHead state (u.take r) = .cut e) : e = pcapngTorn u.length r := by
  obtain ⟨hdr, hroom, hhdr, hsize, -⟩ := pcapngHead_eq_unit.mp hunit
  have hlen : (u.take r).length = r := by
    rw [List.length_take]
    omega
  unfold pcapngHead at hcut
  unfold pcapngTorn
  rw [hlen] at hcut
  split at hcut
  next hshort =>
    simp only [minBlockSize, blockHeaderSize, blockTrailerSize] at hshort hcut
    rw [if_pos hshort]
    exact (Head.cut.inj hcut).symm
  next hroom' =>
    have hheader : minBlockSize ≤ (u.take r).length := by omega
    have hfront : readBlockHeader state (u.take r ++ u.drop r) 0 =
        readBlockHeader state (u.take r) 0 := readBlockHeader_append_left hheader _
    rw [List.take_append_drop, hhdr] at hfront
    simp only [minBlockSize, blockHeaderSize, blockTrailerSize] at hroom'
    rw [← hfront] at hcut
    dsimp only at hcut
    rw [if_pos (.inr (by omega)), hsize] at hcut
    rw [if_neg hroom']
    exact (Head.cut.inj hcut).symm

end Torn

theorem rtcp_tearsLoudly {data : Bytes} {packets : List RtcpPacket}
    (h : parseRtcp data = .ok packets) :
    ∃ frames, TearsLoudly data [] packets (fun d y => parseRtcp d = y.toExcept) rtcpTorn frames := by
  have hlen := headerSize_le_of_parseRtcp h
  rw [parseRtcp, parseCompound_eq_run true hlen, Yielded.toExcept_eq_ok] at h
  refine tearsLoudly_of_run rfl h (fun rest hne => parseRtcp_eq_run hne) ?_
  exact fun s' u next item r e hunit _ hlt hcut => rtcpTorn_of_cut hunit hlt hcut

theorem pcap_tearsLoudly {data : Bytes} {packets : List PcapPacket}
    (h : readPcap data = ⟨packets, none⟩) :
    ∃ frames, TearsLoudly data (data.take globalHeaderSize) packets (fun d y => readPcap d = y) pcapTorn frames := by
  cases hhdr : readGlobalHeader data with
  | error e =>
    rw [readPcap, readPcapMode_error true hhdr] at h
    cases h
  | ok format =>
    rw [readPcap, readPcapMode_eq_run true hhdr] at h
    have hlen := require_eq_ok.mp (bind_eq_ok.mp hhdr).choose_spec.1
    have hfront : (data.take globalHeaderSize).length = globalHeaderSize := by
      rw [List.length_take]
      omega
    refine tearsLoudly_of_run (F := pcapFraming format) (s := ())
      (List.take_append_drop globalHeaderSize data).symm h (fun rest _ => ?_) ?_
    · have hagain : readGlobalHeader (data.take globalHeaderSize ++ rest) = .ok format := by
        have happ := readGlobalHeader_append_left (x := data.take globalHeaderSize)
          hfront.ge (data.drop globalHeaderSize)
        rw [List.take_append_drop, hhdr] at happ
        exact (readGlobalHeader_append_left hfront.ge rest).trans happ.symm
      rw [readPcap, readPcapMode_eq_run true hagain, List.drop_left' hfront]
    · exact fun s' u next item r e hunit _ hlt hcut => pcapTorn_of_cut hunit hlt hcut

theorem pcapng_tearsLoudly {data : Bytes} {packets : List PcapPacket}
    (h : readPcapng data = ⟨packets, none⟩) :
    ∃ frames, TearsLoudly data [] packets (fun d y => readPcapng d = y) pcapngTorn frames := by
  have hread : ∀ rest : Bytes, rest ≠ [] → readPcapng rest =
      pcapngFraming.run true { order := none, interfaces := [] } rest := by
    intro rest hne
    by_cases hlen : minBlockSize ≤ rest.length
    · rw [readPcapng, readPcapngMode_eq_run true hlen]
    · rw [readPcapng, readPcapngMode, if_pos (by omega), Framing.run_cut hne (if_pos (by omega))]
      rfl
  have hne : data ≠ [] := by
    rintro rfl
    cases h
  rw [hread data hne] at h
  refine tearsLoudly_of_run rfl h (fun rest hne => hread rest hne) ?_
  exact fun s' u next item r e hunit _ hlt hcut => pcapngTorn_of_cut hunit hlt hcut

/-- Strict mode notices a cut anywhere inside a unit, and says how much of it is there, or, of a
pcapng block that has its first 12 bytes, how long it should be; a cut between two units cannot be
noticed. -/
theorem truncation_noticed (data : Bytes) :
    (∀ packets, parseRtcp data = .ok packets → ∃ frames,
      TearsLoudly data [] packets (fun d y => parseRtcp d = y.toExcept) rtcpTorn frames) ∧
    (∀ packets, readPcap data = ⟨packets, none⟩ → ∃ frames,
      TearsLoudly data (data.take globalHeaderSize) packets (fun d y => readPcap d = y) pcapTorn frames) ∧
    (∀ packets, readPcapng data = ⟨packets, none⟩ → ∃ frames,
      TearsLoudly data [] packets (fun d y => readPcapng d = y) pcapngTorn frames) :=
  ⟨fun _ => rtcp_tearsLoudly, fun _ => pcap_tearsLoudly, fun _ => pcapng_tearsLoudly⟩

end Rtpkit

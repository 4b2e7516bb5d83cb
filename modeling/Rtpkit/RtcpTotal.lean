import Rtpkit.RtcpNormalise

namespace Rtpkit

open Outcome Chunk

def IsRtcpMalformed (e : Error) : Prop := ∃ detail, e = .rtcpMalformedPacket detail

theorem parseReportBlock_failsOnly {allowed : Error → Prop} {data : Bytes} {off : Nat}
    (h : off + 24 ≤ data.length) : FailsOnly allowed (parseReportBlock data off) := by
  have hword : ∀ i, i + 4 ≤ 24 → FailsOnly allowed (unpackFrom .I data (off + i)) :=
    fun i hi => unpackFrom_failsOnly (by simp only [Fmt.size_I]; omega)
  refine failsOnly_bind (hword 0 (by decide)) fun _ _ => ?_
  refine failsOnly_bind (hword 4 (by decide)) fun _ _ => ?_
  refine failsOnly_bind (hword 8 (by decide)) fun _ _ => ?_
  refine failsOnly_bind (hword 12 (by decide)) fun _ _ => ?_
  refine failsOnly_bind (hword 16 (by decide)) fun _ _ => ?_
  exact failsOnly_bind (hword 20 (by decide)) fun _ _ => failsOnly_ok _

theorem parseReportBlocks_failsOnly (data : Bytes) (rc : Nat) :
    FailsOnly IsRtcpMalformed (parseReportBlocks data rc) := by
  refine failsOnly_bind (failsOnly_require ⟨_, rfl⟩) fun _ hroom => ?_
  have hroom := require_eq_ok.mp hroom
  refine failsOnly_mapM fun i hi => parseReportBlock_failsOnly ?_
  have hlt := List.mem_range.mp hi
  simp only [reportBlockSize] at hroom ⊢
  omega

theorem parseSr_failsOnly (content : Bytes) (rc : Nat) (paddingSize : Int) :
    FailsOnly IsRtcpMalformed (parseSr content rc paddingSize) := by
  refine failsOnly_bind (failsOnly_require ⟨_, rfl⟩) fun _ hroom => ?_
  have hroom := require_eq_ok.mp hroom
  have hword : ∀ i, i + 4 ≤ 24 → FailsOnly IsRtcpMalformed (unpackFrom .I content i) :=
    fun i hi => unpackFrom_failsOnly (by simp only [Fmt.size_I]; omega)
  refine failsOnly_bind (hword 0 (by decide)) fun _ _ => ?_
  refine failsOnly_bind (hword 4 (by decide)) fun _ _ => ?_
  refine failsOnly_bind (hword 8 (by decide)) fun _ _ => ?_
  refine failsOnly_bind (hword 12 (by decide)) fun _ _ => ?_
  refine failsOnly_bind (hword 16 (by decide)) fun _ _ => ?_
  refine failsOnly_bind (hword 20 (by decide)) fun _ _ => ?_
  exact failsOnly_bind (parseReportBlocks_failsOnly _ _) fun _ _ => failsOnly_ok _

theorem parseRr_failsOnly (content : Bytes) (rc : Nat) (paddingSize : Int) :
    FailsOnly IsRtcpMalformed (parseRr content rc paddingSize) := by
  refine failsOnly_bind (failsOnly_require ⟨_, rfl⟩) fun _ hroom => ?_
  refine failsOnly_bind (unpackFrom_failsOnly (require_eq_ok.mp hroom)) fun _ _ => ?_
  exact failsOnly_bind (parseReportBlocks_failsOnly _ _) fun _ _ => failsOnly_ok _

theorem parseSdesItems_failsOnly (content : Bytes) (pos : Nat) :
    FailsOnly IsRtcpMalformed (parseSdesItems content pos) := by
  induction hn : content.length - pos using Nat.strong_induction_on generalizing pos with
  | _ n ih =>
    rw [parseSdesItems]
    split
    next => exact failsOnly_error ⟨_, rfl⟩
    next hpos =>
      refine failsOnly_bind (getByte_failsOnly (by omega)) fun itemType _ => ?_
      split
      next => exact failsOnly_ok _
      next =>
        refine failsOnly_bind (failsOnly_require ⟨_, rfl⟩) fun _ hheader => ?_
        have hheader := require_eq_ok.mp hheader
        refine failsOnly_bind (getByte_failsOnly (by omega)) fun itemLen _ => ?_
        refine failsOnly_bind (failsOnly_require ⟨_, rfl⟩) fun _ hend => ?_
        exact failsOnly_bind (ih _ (by omega) _ rfl) fun _ _ => failsOnly_ok _

theorem parseSdesChunks_failsOnly (content : Bytes) (sc off : Nat) :
    FailsOnly IsRtcpMalformed (parseSdesChunks content sc off) := by
  induction sc generalizing off with
  | zero => exact failsOnly_ok _
  | succ sc ih =>
    refine failsOnly_bind (failsOnly_require ⟨_, rfl⟩) fun _ hroom => ?_
    refine failsOnly_bind (unpackFrom_failsOnly (require_eq_ok.mp hroom)) fun _ _ => ?_
    refine failsOnly_bind (parseSdesItems_failsOnly _ _) fun _ _ => ?_
    refine failsOnly_bind (failsOnly_require ⟨_, rfl⟩) fun _ _ => ?_
    exact failsOnly_bind (ih _) fun _ _ => failsOnly_ok _

theorem parseReason_failsOnly (content : Bytes) (pos : Nat) :
    FailsOnly IsRtcpMalformed (parseReason content pos) := by
  unfold parseReason
  split
  next hpos =>
    refine failsOnly_bind (getByte_failsOnly hpos) fun _ _ => ?_
    exact failsOnly_bind (failsOnly_require ⟨_, rfl⟩) fun _ _ => failsOnly_ok _
  next => exact failsOnly_ok _

theorem parseBye_failsOnly (content : Bytes) (sc : Nat) (paddingSize : Int) :
    FailsOnly IsRtcpMalformed (parseBye content sc paddingSize) := by
  refine failsOnly_bind (failsOnly_require ⟨_, rfl⟩) fun _ hroom => ?_
  have hroom := require_eq_ok.mp hroom
  refine failsOnly_bind (unpackMany_failsOnly (by omega)) fun _ _ => ?_
  exact failsOnly_bind (parseReason_failsOnly _ _) fun _ _ => failsOnly_ok _

theorem parseApp_failsOnly (content : Bytes) (subtype : Nat) (paddingSize : Int) :
    FailsOnly IsRtcpMalformed (parseApp content subtype paddingSize) := by
  refine failsOnly_bind (failsOnly_require ⟨_, rfl⟩) fun _ hroom => ?_
  have hroom := require_eq_ok.mp hroom
  exact failsOnly_bind (unpackFrom_failsOnly (by simp only [Fmt.size_I]; omega))
    fun _ _ => failsOnly_ok _

/-- Whatever the content, a body parser reads within it or calls it malformed. -/
theorem parseOne_failsOnly (packetType count : Nat) (content : Bytes) (paddingSize : Int) :
    FailsOnly IsRtcpMalformed (parseOne packetType count content paddingSize) := by
  unfold parseOne
  split
  next => exact failsOnly_map (parseSr_failsOnly _ _ _)
  split
  next => exact failsOnly_map (parseRr_failsOnly _ _ _)
  split
  next => exact failsOnly_map (failsOnly_bind (parseSdesChunks_failsOnly _ _ _)
    fun _ _ => failsOnly_ok _)
  split
  next => exact failsOnly_map (parseBye_failsOnly _ _ _)
  split
  next => exact failsOnly_map (parseApp_failsOnly _ _ _)
  next => exact failsOnly_error ⟨_, rfl⟩

theorem exists_readHeader {data : Bytes} {off : Nat} (h : off + headerSize ≤ data.length) :
    ∃ hdr, readHeader data off = .ok hdr := by
  simp only [headerSize] at h
  have hfails : FailsOnly (fun _ => False) (readHeader data off) := by
    refine failsOnly_bind (getByte_failsOnly (by omega)) fun _ _ => ?_
    refine failsOnly_bind (getByte_failsOnly (by omega)) fun _ _ => ?_
    refine failsOnly_bind (unpackFrom_failsOnly ?_) fun _ _ => failsOnly_ok _
    simp only [Fmt.size_H]
    omega
  cases hread : readHeader data off with
  | ok hdr => exact ⟨hdr, rfl⟩
  | error e => exact absurd hread (hfails e)

theorem readPadding_failsOnly (strict flag : Bool) (body : Bytes) :
    FailsOnly IsRtcpMalformed (readPadding strict flag body) := by
  unfold readPadding
  split
  next =>
    split
    next =>
      split
      next => exact failsOnly_error ⟨_, rfl⟩
      next => exact failsOnly_ok _
    next hroom =>
      refine failsOnly_bind (getByte_failsOnly (by omega)) fun _ _ => ?_
      split
      next =>
        split
        next => exact failsOnly_error ⟨_, rfl⟩
        next => exact failsOnly_ok _
      next => exact failsOnly_ok _
  next => exact failsOnly_ok _

theorem skipMalformed_failsOnly {strict : Bool} {packet : Except Error RtcpPacket}
    (h : FailsOnly IsRtcpMalformed packet) :
    FailsOnly IsRtcpMalformed (skipMalformed strict packet) := by
  cases packet with
  | ok packet => exact failsOnly_ok _
  | error e =>
    obtain ⟨detail, rfl⟩ := h e rfl
    rw [skipMalformed]
    split
    next => exact failsOnly_error ⟨_, rfl⟩
    next => exact failsOnly_ok _

theorem parseBody_failsOnly (strict : Bool) (hdr : RtcpHeader) (body : Bytes) :
    FailsOnly IsRtcpMalformed (parseBody strict hdr body) :=
  failsOnly_bind (readPadding_failsOnly _ _ _) fun _ _ =>
    skipMalformed_failsOnly (parseOne_failsOnly _ _ _ _)

/-- Lenient mode takes any padding count; where strict mode has one, it is the same. -/
theorem readPadding_modes (flag : Bool) (body : Bytes) :
    ∃ n, readPadding false flag body = .ok n ∧
      (readPadding true flag body = .ok n ∨ ∃ e, readPadding true flag body = .error e) := by
  unfold readPadding
  cases flag with
  | false => exact ⟨0, rfl, .inl rfl⟩
  | true =>
    rw [if_pos rfl, if_pos rfl]
    by_cases hlen : body.length < 1
    · rw [if_pos hlen, if_pos hlen]
      exact ⟨0, rfl, .inr ⟨_, rfl⟩⟩
    · have hbyte := getByte_eq_ok.mpr
        ⟨_, List.getElem?_eq_getElem (show body.length - 1 < body.length by omega), rfl⟩
      rw [if_neg hlen, if_neg hlen, hbyte, bind_ok, bind_ok]
      split
      next => exact ⟨0, rfl, .inr ⟨_, rfl⟩⟩
      next => exact ⟨_, rfl, .inl rfl⟩

/-- Lenient mode never fails on a body; where strict mode accepts it, both read the same. -/
theorem parseBody_modes (hdr : RtcpHeader) (body : Bytes) :
    ∃ item, parseBody false hdr body = .ok item ∧
      (parseBody true hdr body = .ok item ∨ ∃ e, parseBody true hdr body = .error e) := by
  obtain ⟨n, hlenient, hstrict⟩ := readPadding_modes hdr.paddingFlag body
  have hread := parseOne_failsOnly hdr.packetType hdr.count (slice body 0 (body.length - n)) n
  simp only [parseBody, hlenient, bind_ok]
  cases hone : parseOne hdr.packetType hdr.count (slice body 0 (body.length - n)) n with
  | ok packet =>
    refine ⟨some packet, rfl, ?_⟩
    rcases hstrict with hstrict | ⟨e, hstrict⟩
    · left
      rw [hstrict, bind_ok, hone]
      rfl
    · exact .inr ⟨e, by rw [hstrict, bind_error]⟩
  | error e =>
    obtain ⟨detail, rfl⟩ := hread e hone
    refine ⟨none, rfl, .inr ?_⟩
    rcases hstrict with hstrict | ⟨e, hstrict⟩
    · exact ⟨.rtcpMalformedPacket detail, by rw [hstrict, bind_ok, hone]; rfl⟩
    · exact ⟨e, by rw [hstrict, bind_error]⟩

end Rtpkit

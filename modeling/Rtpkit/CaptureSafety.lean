import Rtpkit.PcapFraming
import Rtpkit.PcapngNumbering
import Rtpkit.PcapngWalk

namespace Rtpkit

open Outcome Chunk

/-- From `pos` on, the data of the packets are slices one behind the other, each at a `place`. -/
inductive CutOut (data : Bytes) (place : Nat → Prop) : Nat → List PcapPacket → Prop
  | nil (pos : Nat) : CutOut data place pos []
  | cons {pos start : Nat} {packet : PcapPacket} {packets : List PcapPacket}
      (behind : pos ≤ start)
      (placed : place start)
      (stands : StandsAt data start packet.data)
      (captured : packet.capturedLength = packet.data.length)
      (rest : CutOut data place (start + packet.data.length) packets) :
      CutOut data place pos (packet :: packets)

theorem CutOut.of_le {data : Bytes} {place : Nat → Prop} {pos pos' : Nat}
    {packets : List PcapPacket} (h : CutOut data place pos' packets) (hle : pos ≤ pos') :
    CutOut data place pos packets := by
  cases h with
  | nil => exact .nil pos
  | cons behind placed stands captured rest =>
    exact .cons (hle.trans behind) placed stands captured rest

/-- What a reader of a capture file owes its caller, whatever the file. -/
structure ReadsSafely (data : Bytes) (place : Nat → Prop) (y : Yielded PcapPacket Error) : Prop where
  failure : ∀ e, y.failure = some e → e.isCaptureError = true
  packets : CutOut data place 0 y.items

section Pcap

variable {data : Bytes}

theorem magicTable_divisor : ∀ row ∈ magicTable, 0 < row.2.2 := by decide

theorem tsDivisor_pos {format : PcapFormat} (h : readGlobalHeader data = .ok format) :
    0 < format.tsDivisor := by
  obtain ⟨_, -, h⟩ := bind_eq_ok.mp h
  dsimp only at h
  cases hlookup : magicTable.lookup (slice data 0 4) with
  | none =>
    rw [hlookup] at h
    cases h
  | some row =>
    rw [hlookup] at h
    obtain ⟨linkType, -, h⟩ := bind_eq_ok.mp h
    obtain rfl := pure_eq_ok.mp h
    obtain ⟨before, after, htable, -⟩ := List.lookup_eq_some_iff.mp hlookup
    exact magicTable_divisor (slice data 0 4, row) (by rw [htable]; simp)

theorem readGlobalHeader_failsOnly (data : Bytes) :
    FailsOnly (fun e => e.isCaptureError = true) (readGlobalHeader data) := by
  refine failsOnly_bind (failsOnly_require rfl) fun _ hroom => ?_
  have hroom := require_eq_ok.mp hroom
  simp only [globalHeaderSize] at hroom
  dsimp only
  split
  next => exact failsOnly_error rfl
  next order tsDivisor _ =>
    have hlink : FailsOnly (fun e => e.isCaptureError = true) (unpackIn order .I data 20) :=
      unpackIn_failsOnly order (by simp only [Fmt.size_I]; omega)
    exact failsOnly_bind hlink fun _ _ => failsOnly_ok _

theorem pcapHead_stops {format : PcapFormat} {strict : Bool} {rest : Bytes} {e : Error}
    (h : (pcapHead format rest).Stops strict e) : e.isCaptureError = true := by
  unfold pcapHead at h
  split at h
  next =>
    rw [← h.2]
    rfl
  next hroom =>
    obtain ⟨hdr, hhdr⟩ := exists_readRecordHeader format.order
      (show 0 + recordHeaderSize ≤ rest.length by omega)
    rw [hhdr] at h
    dsimp only at h
    split at h
    next =>
      rw [← h.2]
      rfl
    next => cases h.2

/-- Where the records of a pcap file hold their data. -/
def RecordData (strict : Bool) (data : Bytes) (start : Nat) : Prop :=
  ∃ format off, readGlobalHeader data = .ok format ∧
    (pcapFraming format).Visits strict () (data.drop globalHeaderSize) () off ∧
    start = globalHeaderSize + off + recordHeaderSize

theorem cutOut_pcap {format : PcapFormat} (hformat : readGlobalHeader data = .ok format)
    (strict : Bool) : CutOut data (RecordData strict data) 0
      ((pcapFraming format).run strict () (data.drop globalHeaderSize)).items := by
  suffices h : CutOut data (RecordData strict data) (globalHeaderSize + 0)
      ((pcapFraming format).run strict () ((data.drop globalHeaderSize).drop 0)).items from
    h.of_le (Nat.zero_le _)
  refine Framing.Visits.start.run_induction
    (p := fun off y => CutOut data (RecordData strict data) (globalHeaderSize + off) y.items)
    (fun _ _ _ _ _ => .nil _) ?_
  intro _ off size _ objection item y hvisits hhead _ hrest
  obtain ⟨hdr, hroom, hhdr, rfl, hle, -, rfl⟩ := pcapHead_eq_unit.mp hhead
  have hroom' : globalHeaderSize + off + recordHeaderSize + hdr.inclLen ≤ data.length := by
    rw [List.length_drop, List.length_drop] at hroom hle
    simp only [recordHeaderSize] at hroom hle ⊢
    omega
  have hslice : slice ((data.drop globalHeaderSize).drop off) recordHeaderSize
      (recordHeaderSize + hdr.inclLen) = slice data (globalHeaderSize + off + recordHeaderSize)
        (globalHeaderSize + off + recordHeaderSize + hdr.inclLen) := by
    rw [List.drop_drop, slice_drop, ← Nat.add_assoc]
  have hlen := length_slice_add hroom'
  rw [← hslice] at hlen
  refine .cons (Nat.le_add_right _ _) ⟨format, off, hformat, hvisits, rfl⟩ ?_ ?_ ?_
  · dsimp only [PcapFormat.packet]
    rw [hslice]
    exact standsAt_slice data (Nat.le_add_right _ _) hroom'
  · dsimp only [PcapFormat.packet]
    rw [hlen]
  · dsimp only [PcapFormat.packet]
    rwa [hlen, Nat.add_assoc, Nat.add_assoc]

end Pcap

section Pcapng

variable {data : Bytes} {state : PcapngState} {off : Nat}

theorem IsPcapngMalformed.isCaptureError {e : Error} (h : IsPcapngMalformed e) :
    e.isCaptureError = true := by
  obtain ⟨detail, rfl⟩ := h
  rfl

theorem startSection_failsOnly (state : PcapngState) (data : Bytes) (off : Nat) :
    FailsOnly (fun e => e.isCaptureError = true) (startSection state data off) := by
  unfold startSection
  dsimp only
  split
  next =>
    split
    next => exact failsOnly_ok _
    split
    next => exact failsOnly_ok _
    next => exact failsOnly_error rfl
  next => exact failsOnly_ok _

theorem readBlockHeader_failsOnly (hroom : off + minBlockSize ≤ data.length) :
    FailsOnly (fun e => e.isCaptureError = true) (readBlockHeader state data off) := by
  simp only [minBlockSize, blockHeaderSize, blockTrailerSize] at hroom
  refine failsOnly_bind (startSection_failsOnly state data off) fun state' _ => ?_
  split
  next => exact failsOnly_error rfl
  next order _ =>
    have hword : ∀ i, i + 4 ≤ 12 → FailsOnly (fun e => e.isCaptureError = true)
        (unpackIn order .I data (off + i)) :=
      fun i hi => unpackIn_failsOnly order (by simp only [Fmt.size_I]; omega)
    refine failsOnly_bind (hword 0 (by decide)) fun _ _ => ?_
    exact failsOnly_bind (hword 4 (by decide)) fun _ _ => failsOnly_ok _

theorem pcapngHead_stops {strict : Bool} {rest : Bytes} {e : Error}
    (h : (pcapngHead state rest).Stops strict e) : e.isCaptureError = true := by
  unfold pcapngHead at h
  split at h
  next =>
    rw [← h.2]
    rfl
  next hroom =>
    have hfails : FailsOnly (fun e => e.isCaptureError = true) (readBlockHeader state rest 0) :=
      readBlockHeader_failsOnly (by omega)
    split at h
    next e' hhdr =>
      obtain rfl : e' = e := h
      exact hfails _ hhdr
    next hdr hhdr =>
      dsimp only at h
      split at h
      next =>
        rw [← h.2]
        rfl
      next =>
        have hobjection := h.2
        unfold blockResult at hobjection
        split at hobjection
        next => cases hobjection
        next e' hblock =>
          cases hobjection
          exact (parseBlock_failsOnly hdr _ _ hblock).isCaptureError

/-- A packet is cut out of the body of an Enhanced or of a Simple Packet Block. -/
theorem data_of_blockResult {hdr : BlockHeader} {body : Bytes} {after : PcapngState}
    {objection : Option Error} {packet : PcapPacket}
    (h : blockResult hdr body = (after, objection, some packet)) :
    ∃ start n : Nat, (start = 20 ∨ start = 4) ∧ packet.capturedLength = n ∧
      start + n ≤ body.length ∧ packet.data = slice body start (start + n) := by
  unfold blockResult at h
  split at h
  next interfaces item hblock =>
    cases h
    unfold parseBlock at hblock
    split at hblock
    next =>
      obtain ⟨_, -, hblock⟩ := bind_eq_ok.mp hblock
      cases hblock
    split at hblock
    next =>
      obtain ⟨pkt, hepb, hblock⟩ := bind_eq_ok.mp hblock
      cases hblock
      obtain ⟨iface, hroom, -, rfl⟩ := parseEpb_eq_ok.mp hepb
      exact ⟨20, _, .inl rfl, rfl, hroom, rfl⟩
    split at hblock
    next =>
      obtain ⟨pkt, hspb, hblock⟩ := bind_eq_ok.mp hblock
      cases hblock
      obtain ⟨_, hroom, hspb⟩ := bind_eq_ok.mp hspb
      obtain ⟨origLen, -, hspb⟩ := bind_eq_ok.mp hspb
      have hroom := require_eq_ok.mp hroom
      obtain rfl := pure_eq_ok.mp hspb
      exact ⟨4, _, .inr rfl, rfl, by omega, rfl⟩
    next => cases hblock
  next => cases h

theorem data_of_unit {size : Nat} {after : PcapngState} {objection : Option Error}
    {packet : PcapPacket}
    (h : pcapngHead state (data.drop off) = .unit size after objection (some packet)) :
    ∃ start, (start = off + 28 ∨ start = off + 12) ∧ StandsAt data start packet.data ∧
      packet.capturedLength = packet.data.length ∧ start + packet.data.length ≤ off + size := by
  obtain ⟨hdr, -, -, -, hmin, hle, hresult⟩ := pcapngHead_eq_unit.mp h
  simp only [minBlockSize, blockHeaderSize, blockTrailerSize] at hmin hresult
  obtain ⟨start, n, hstart, hcaptured, hroom, hdata⟩ := data_of_blockResult hresult
  rw [List.length_drop] at hle
  rw [length_slice, List.length_drop] at hroom
  rw [slice_slice _ _ _ _ _ (by omega), slice_drop] at hdata
  have hend : off + (8 + (start + n)) = off + 8 + start + n := by omega
  rw [← Nat.add_assoc, hend] at hdata
  have hlen : packet.data.length = n := by
    rw [hdata]
    exact length_slice_add (by omega)
  refine ⟨off + 8 + start, by omega, ?_, by rw [hcaptured, hlen], by omega⟩
  rw [hdata]
  exact standsAt_slice data (Nat.le_add_right _ _) (by omega)

/-- Where the packet blocks of a pcapng file hold their data. -/
def BlockData (strict : Bool) (data : Bytes) (start : Nat) : Prop :=
  ∃ state off, pcapngFraming.Visits strict ⟨none, []⟩ data state off ∧
    (start = off + 28 ∨ start = off + 12)

theorem cutOut_pcapng (strict : Bool) (data : Bytes) :
    CutOut data (BlockData strict data) 0 (pcapngFraming.run strict ⟨none, []⟩ data).items := by
  refine Framing.Visits.start.run_induction
    (p := fun off y => CutOut data (BlockData strict data) off y.items)
    (fun _ _ _ _ _ => .nil _) ?_
  intro state off size after objection item y hvisits hhead _ hrest
  cases item with
  | none => exact hrest.of_le (Nat.le_add_right _ _)
  | some packet =>
    obtain ⟨start, hplace, hstands, hcaptured, hend⟩ := data_of_unit hhead
    exact .cons (by omega) ⟨state, off, hvisits, hplace⟩ hstands hcaptured (hrest.of_le hend)

/-- Every tick of the interfaces is a fraction of a second that can be divided by. -/
def Divisible (interfaces : List Interface) : Prop := ∀ iface ∈ interfaces, 0 < iface.tsResolution

theorem divisible_of_readBlockHeader {rest : Bytes} {hdr : BlockHeader}
    (hstate : Divisible state.interfaces) (h : readBlockHeader state rest 0 = .ok hdr) :
    Divisible hdr.interfaces := by
  rw [readBlockHeader_interfaces h]
  split
  next => exact fun _ hiface => absurd hiface List.not_mem_nil
  next => exact hstate

theorem divisible_of_blockResult {hdr : BlockHeader} (h : Divisible hdr.interfaces) (body : Bytes) :
    Divisible (blockResult hdr body).1.interfaces := by
  rw [blockResult_interfaces]
  split
  next =>
    cases hidb : parseIdb body hdr.order with
    | error e =>
      intro iface hiface
      rcases List.mem_append.mp hiface with hbefore | hnone
      · exact h iface hbefore
      · exact absurd hnone List.not_mem_nil
    | ok described =>
      intro iface hiface
      rcases List.mem_append.mp hiface with hbefore | hnew
      · exact h iface hbefore
      · obtain rfl := List.mem_singleton.mp hnew
        exact parseIdb_pos hidb
  next => exact h

theorem divisible_of_visits {strict : Bool}
    (h : pcapngFraming.Visits strict ⟨none, []⟩ data state off) : Divisible state.interfaces := by
  induction h with
  | start => exact fun _ hiface => absurd hiface List.not_mem_nil
  | next earlier head quiet ih =>
    obtain ⟨hdr, -, hhdr, -, -, -, hresult⟩ := pcapngHead_eq_unit.mp head
    have hafter := congrArg Prod.fst hresult
    dsimp only at hafter
    rw [← hafter]
    exact divisible_of_blockResult (divisible_of_readBlockHeader ih hhdr) _

end Pcapng

theorem readPcapMode_safe (strict : Bool) (data : Bytes) :
    ReadsSafely data (RecordData strict data) (readPcapMode strict data) := by
  cases hformat : readGlobalHeader data with
  | error e =>
    rw [readPcapMode_error strict hformat]
    refine ⟨fun e' he => ?_, .nil 0⟩
    cases he
    exact readGlobalHeader_failsOnly data e hformat
  | ok format =>
    rw [readPcapMode_eq_run strict hformat]
    refine ⟨fun e he => ?_, cutOut_pcap hformat strict⟩
    obtain ⟨_, off, -, -, hstop⟩ := Framing.failure_run_iff.mp he
    exact pcapHead_stops hstop

theorem readPcapngMode_safe (strict : Bool) (data : Bytes) :
    ReadsSafely data (BlockData strict data) (readPcapngMode strict data) := by
  by_cases hlen : minBlockSize ≤ data.length
  · rw [readPcapngMode_eq_run strict hlen]
    refine ⟨fun e he => ?_, cutOut_pcapng strict data⟩
    obtain ⟨state, off, -, -, hstop⟩ := Framing.failure_run_iff.mp he
    exact pcapngHead_stops hstop
  · rw [readPcapngMode, if_pos (by omega)]
    refine ⟨fun e he => ?_, .nil 0⟩
    cases he
    rfl

/-- Iterating over any file ends without a failure or with one of a capture file, divides by no
zero, and yields packets whose data are slices of the file, one behind the other. -/
theorem readCapture_safe (data : Bytes) :
    ReadsSafely data (RecordData true data) (readPcap data) ∧
    ReadsSafely data (BlockData true data) (readPcapng data) ∧
    (∀ format, readGlobalHeader data = .ok format → 0 < format.tsDivisor) ∧
    (∀ state off hdr, pcapngFraming.Visits true ⟨none, []⟩ data state off →
      readBlockHeader state (data.drop off) 0 = .ok hdr → Divisible hdr.interfaces) := by
  refine ⟨readPcapMode_safe true data, readPcapngMode_safe true data,
    fun _ => tsDivisor_pos, fun state off hdr hvisits hhdr => ?_⟩
  exact divisible_of_readBlockHeader (divisible_of_visits hvisits) hhdr

end Rtpkit

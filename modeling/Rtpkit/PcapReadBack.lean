import Rtpkit.PcapFraming
import Rtpkit.PcapImage

namespace Rtpkit

open Outcome Chunk

/-- What the reader takes from the header of a written file. -/
def writtenFormat (linkType : Int) : PcapFormat where
  order := .little
  tsDivisor := 1000000
  linkType := linkType.toNat

theorem length_globalHeaderWire (linkType : Int) :
    (globalHeaderWire linkType).length = globalHeaderSize := by
  simp [globalHeaderWire, magicLeUs, globalHeaderSize]

/-- The global header is known by its magic number and its link type. -/
theorem readGlobalHeader_magic {magic : Bytes} (middle : Bytes) {order : ByteOrder}
    {tsDivisor : Nat} {linkType : Int} (hmagic : magic.length = 4) (hmiddle : middle.length = 16)
    (hrow : magicTable.lookup magic = some (order, tsDivisor)) (h : Fmt.Fits .I linkType)
    (rest : Bytes) :
    readGlobalHeader (magic ++ (middle ++ Fmt.wireIn order .I linkType) ++ rest) =
      .ok { order := order, tsDivisor := tsDivisor, linkType := linkType.toNat } := by
  have hlen : globalHeaderSize ≤
      (magic ++ (middle ++ Fmt.wireIn order .I linkType) ++ rest).length := by
    simp only [List.length_append, hmagic, hmiddle, Fmt.length_wireIn, Fmt.size_I,
      globalHeaderSize]
    omega
  have hfront : slice (magic ++ (middle ++ Fmt.wireIn order .I linkType) ++ rest) 0 4 = magic := by
    rw [List.append_assoc, slice_zero, List.take_left' hmagic]
  have hstands : StandsAt (magic ++ (middle ++ Fmt.wireIn order .I linkType) ++ rest) 20
      (Fmt.wireIn order .I linkType) :=
    ⟨magic ++ middle, rest, by simp only [List.append_assoc], by simp [hmagic, hmiddle]⟩
  rw [readGlobalHeader, require_pos hlen, bind_ok, hfront]
  dsimp only
  rw [hrow]
  dsimp only
  rw [unpackIn_of_standsAt h hstands]
  rfl

theorem readGlobalHeader_globalHeaderWire {linkType : Int} (h : Fmt.Fits .I linkType)
    (rest : Bytes) :
    readGlobalHeader (globalHeaderWire linkType ++ rest) = .ok (writtenFormat linkType) := by
  have hrow : magicTable.lookup magicLeUs = some (.little, 1000000) := by decide
  have hread := readGlobalHeader_magic (Fmt.wireIn .little .H 2 ++
    (Fmt.wireIn .little .H 4 ++ (signedWire .little 4 0 ++ (Fmt.wireIn .little .I 0 ++
      Fmt.wireIn .little .I 262144)))) rfl (by simp) hrow h rest
  simp only [List.append_assoc] at hread
  simp only [globalHeaderWire, List.append_assoc]
  exact hread

/-- A record in a byte order. -/
def recordWireIn (order : ByteOrder) (tsSec tsFrac origLen : Int) (data : Bytes) : Bytes :=
  Fmt.wireIn order .I tsSec ++
    (Fmt.wireIn order .I tsFrac ++
      (Fmt.wireIn order .I data.length ++ (Fmt.wireIn order .I origLen ++ data)))

theorem length_recordWireIn (order : ByteOrder) (tsSec tsFrac origLen : Int) (data : Bytes) :
    (recordWireIn order tsSec tsFrac origLen data).length = recordHeaderSize + data.length := by
  simp only [recordWireIn, recordHeaderSize, List.length_append, Fmt.length_wireIn, Fmt.size_I]
  omega

/-- The bytes of a record are read as that record, whatever follows them. -/
theorem pcapHead_recordWireIn (format : PcapFormat) {tsSec tsFrac origLen : Int} {data : Bytes}
    (hsec : Fmt.Fits .I tsSec) (hfrac : Fmt.Fits .I tsFrac) (hlen : Fmt.Fits .I data.length)
    (horig : Fmt.Fits .I origLen) (rest : Bytes) :
    pcapHead format (recordWireIn format.order tsSec tsFrac origLen data ++ rest) =
      .unit (recordWireIn format.order tsSec tsFrac origLen data).length () none
        (some (format.packet ⟨tsSec.toNat, tsFrac.toNat, data.length, origLen.toNat⟩ data)) := by
  generalize hd : recordWireIn format.order tsSec tsFrac origLen data ++ rest = d
  have hstands : StandsAt d 0 (recordWireIn format.order tsSec tsFrac origLen data) :=
    ⟨[], rest, hd.symm, rfl⟩
  have hle := hstands.le_length
  rw [length_recordWireIn, Nat.zero_add] at hle
  simp only [recordWireIn, standsAt_append, Fmt.length_wireIn, Fmt.size_I, Nat.zero_add,
    Nat.reduceAdd] at hstands
  obtain ⟨hsecAt, hfracAt, hlenAt, horigAt, hdataAt⟩ := hstands
  rw [length_recordWireIn]
  refine pcapHead_eq_unit.mpr ⟨⟨tsSec.toNat, tsFrac.toNat, data.length, origLen.toNat⟩, by omega,
    ?_, rfl, hle, rfl, ?_⟩
  · rw [readRecordHeader, unpackIn_of_standsAt hsec hsecAt, bind_ok,
      unpackIn_of_standsAt hfrac hfracAt, bind_ok, unpackIn_of_standsAt hlen hlenAt,
      bind_ok, unpackIn_of_standsAt horig horigAt, bind_ok]
    rfl
  · rw [show slice d recordHeaderSize (recordHeaderSize + data.length) = data from
      hdataAt.slice_eq]

/-- The fields in front of a written record. -/
def writtenHeader (pkt : PcapPacket) : RecordHeader where
  tsSec := (splitTimestamp pkt.timestamp).1.toNat
  tsFrac := (splitTimestamp pkt.timestamp).2.toNat
  inclLen := pkt.data.length
  origLen := pkt.originalLength.toNat

theorem pcapHead_recordWire {linkType : Int} {pkt : PcapPacket} (h : pkt.FitsHeader)
    (rest : Bytes) :
    pcapHead (writtenFormat linkType) (recordWire pkt ++ rest) =
      .unit (recordWire pkt).length () none
        (some ((writtenFormat linkType).packet (writtenHeader pkt) pkt.data)) :=
  pcapHead_recordWireIn (writtenFormat linkType) h.seconds h.microseconds h.data
    h.originalLength rest

/-- Whole seconds and the microseconds left make up the number of microseconds. -/
theorem seconds_add_microseconds {tick : ℤ} (h0 : 0 ≤ tick) (h : tick / 1000000 ≤ 0xFFFFFFFF) :
    (((tick / 1000000).toNat : Nat) : ℚ) +
        (((tick % 1000000).toNat : Nat) : ℚ) / ((1000000 : Nat) : ℚ) =
      ((tick % 2 ^ 64 : ℤ) : ℚ) / 1000000 := by
  have hmod : tick % 2 ^ 64 = tick := by omega
  have hdigits : (((tick / 1000000).toNat : Nat) : ℤ) * 1000000 +
      (((tick % 1000000).toNat : Nat) : ℤ) = tick := by omega
  have hcast : (((tick / 1000000).toNat : Nat) : ℚ) * 1000000 +
      (((tick % 1000000).toNat : Nat) : ℚ) = (tick : ℚ) := by exact_mod_cast hdigits
  rw [hmod, ← hcast, add_div, mul_div_cancel_right₀ _ (by norm_num)]
  norm_num

theorem packet_writtenHeader {linkType : Int} {pkt : PcapPacket} (h : pkt.FitsHeader)
    (hlink : 0 ≤ linkType) (hsame : pkt.linkType = linkType) (htime : 0 ≤ pkt.timestamp) :
    (writtenFormat linkType).packet (writtenHeader pkt) pkt.data = pkt.requantised := by
  have hsec := h.seconds
  rw [splitTimestamp_eq htime, Fmt.fits_I] at hsec
  have hstamp := seconds_add_microseconds (tick_nonneg htime) hsec.2
  have horig := Int.toNat_of_nonneg h.originalLength.1
  simp only [PcapFormat.packet, writtenFormat, writtenHeader, PcapPacket.requantised, horig,
    splitTimestamp_eq htime, Int.toNat_of_nonneg hlink, hsame]
  exact congrArg (PcapPacket.mk · _ _ _ _) hstamp

/-- Behind the global header, records that are read one by one are read together. -/
theorem readPcap_of_records {γ : Type} {data : Bytes} {format : PcapFormat} {wire : γ → Bytes}
    {packet : γ → PcapPacket} {records : List γ} (hformat : readGlobalHeader data = .ok format)
    (hdrop : data.drop globalHeaderSize = (records.map wire).flatten)
    (hhead : ∀ r ∈ records, ∀ rest, pcapHead format (wire r ++ rest) =
      .unit (wire r).length () none (some (packet r))) :
    readPcap data = ⟨records.map packet, none⟩ := by
  have hrun := Framing.run_append_units (F := pcapFraming format) (fun _ => True) (fun _ _ => ())
    (fun _ _ r hr rest => hhead r hr rest) (fun _ _ _ _ => trivial) true (s := ()) trivial []
  rw [List.append_nil] at hrun
  rw [readPcap, readPcapMode_eq_run true hformat, hdrop, hrun, Framing.run_nil,
    List.filterMap_eq_map', Yielded.prepend, List.append_nil]

/-- Reading a written file back gives the packets with whole microseconds. -/
theorem readPcap_pcapImage {linkType : Int} {packets : List PcapPacket}
    (hlink : Fmt.Fits .I linkType) (hsame : ∀ pkt ∈ packets, pkt.linkType = linkType)
    (hfits : ∀ pkt ∈ packets, pkt.FitsHeader ∧ 0 ≤ pkt.timestamp) :
    readPcap (pcapImage linkType packets) = ⟨packets.map PcapPacket.requantised, none⟩ := by
  have hdrop : (pcapImage linkType packets).drop globalHeaderSize =
      (packets.map recordWire).flatten :=
    List.drop_left' (length_globalHeaderWire linkType)
  refine readPcap_of_records (readGlobalHeader_globalHeaderWire hlink _) hdrop ?_
  intro pkt hpkt rest
  obtain ⟨hheader, htime⟩ := hfits pkt hpkt
  rw [pcapHead_recordWire hheader,
    packet_writtenHeader hheader hlink.1 (hsame pkt hpkt) htime]

end Rtpkit

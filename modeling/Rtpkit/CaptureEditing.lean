import Rtpkit.CaptureRewrite
import Rtpkit.DecapSafety
import Rtpkit.PcapRoundTrip

namespace Rtpkit

open Outcome Chunk

/-- The two kinds of capture files. -/
inductive CaptureFormat
  | pcap
  | pcapng
  deriving DecidableEq, Repr

def CaptureFormat.write : CaptureFormat → List PcapPacket → Except Error Bytes
  | pcap, packets => writePcap packets none
  | pcapng, packets => writePcapng packets

/-- Reading a capture, keeping the packets with a condition on their frames, and writing these. -/
structure Edit where
  keep : Int → Bytes → Except Error Bool
  format : CaptureFormat

namespace Edit

def select (edit : Edit) : List PcapPacket → Except Error (List PcapPacket)
  | [] => pure []
  | pkt :: packets => do
    let wanted ← edit.keep pkt.linkType pkt.data
    let kept ← edit.select packets
    pure (if wanted then pkt :: kept else kept)

/-- The comprehension over what a reader yields, which ends as the reader does. -/
def selectFrom (edit : Edit) (y : Yielded PcapPacket Error) : Except Error (List PcapPacket) := do
  let kept ← edit.select y.items
  match y.failure with
  | none => pure kept
  | some e => .error e

def file (edit : Edit) (data : Bytes) : Except Error Bytes := do
  let kept ← edit.selectFrom (readCapture data)
  edit.format.write kept

end Edit

/-- One edit after the other, each of the file that the one before it has written. -/
def editFiles (edit : Edit) : List Edit → Bytes → Except Error Bytes
  | [], data => edit.file data
  | next :: edits, data => do
    let b ← edit.file data
    editFiles next edits b

/-- The same edits of packets in memory: the files in between are written and never read. -/
def editPackets (edit : Edit) : List Edit → Yielded PcapPacket Error → Except Error Bytes
  | [], y => do
    let kept ← edit.selectFrom y
    edit.format.write kept
  | next :: edits, y => do
    let kept ← edit.selectFrom y
    let _ ← edit.format.write kept
    editPackets next edits ⟨kept, none⟩

section Requantised

variable {pkt : PcapPacket} {packets : List PcapPacket}

/-- The packets that the writers take as they come from a reader. -/
def PcapPacket.OnClock (pkt : PcapPacket) : Prop := 0 ≤ pkt.timestamp ∧ pkt.tick < 2 ^ 64

theorem requantised_nonneg (pkt : PcapPacket) : 0 ≤ pkt.requantised.timestamp := by
  have hmod : (0 : ℚ) ≤ ((pkt.tick % 2 ^ 64 : ℤ) : ℚ) := by
    exact_mod_cast Int.emod_nonneg _ (by norm_num)
  exact div_nonneg hmod (by norm_num)

theorem splitTimestamp_requantised (h : pkt.OnClock) :
    splitTimestamp pkt.requantised.timestamp = splitTimestamp pkt.timestamp := by
  have htick : pkt.requantised.tick = pkt.tick := by
    rw [tick_requantised, tick_mod_of_lt h.1 h.2]
  simp only [PcapPacket.tick] at htick
  rw [splitTimestamp_eq h.1, splitTimestamp_eq (requantised_nonneg pkt), htick]

theorem buildRecord_requantised (h : pkt.OnClock) :
    buildRecord pkt.requantised = buildRecord pkt := by
  unfold buildRecord
  rw [splitTimestamp_requantised h]
  rfl

theorem checkLinkTypes_requantised (chosen : Int) (i : Nat) (packets : List PcapPacket) :
    checkLinkTypes chosen i (packets.map PcapPacket.requantised) =
      checkLinkTypes chosen i packets := by
  induction packets generalizing i with
  | nil => rfl
  | cons pkt packets ih =>
    rw [List.map_cons, checkLinkTypes, checkLinkTypes, ih]
    rfl

theorem chooseLinkType_requantised (packets : List PcapPacket) (linkType : Option Int) :
    chooseLinkType (packets.map PcapPacket.requantised) linkType =
      chooseLinkType packets linkType := by
  cases linkType with
  | some linkType => rfl
  | none =>
    cases packets with
    | nil => rfl
    | cons pkt packets => rfl

theorem mapM_requantised {β : Type} {f g : PcapPacket → Except Error β}
    (h : ∀ pkt ∈ packets, f pkt.requantised = g pkt) :
    (packets.map PcapPacket.requantised).mapM f = packets.mapM g := by
  induction packets with
  | nil => rfl
  | cons pkt packets ih =>
    obtain ⟨hpkt, hrest⟩ := List.forall_mem_cons.mp h
    rw [List.map_cons, List.mapM_cons, List.mapM_cons, hpkt, ih hrest]

/-- The halves of the counter are those of its residue. -/
theorem buildEpb_requantised (ifaceId : Nat) (pkt : PcapPacket) :
    buildEpb ifaceId pkt.requantised = buildEpb ifaceId pkt := by
  have htick := tick_requantised pkt
  have hhigh : pkt.tick % 2 ^ 64 / 2 ^ 32 % 2 ^ 32 = pkt.tick / 2 ^ 32 % 2 ^ 32 := by omega
  have hlow : pkt.tick % 2 ^ 64 % 2 ^ 32 = pkt.tick % 2 ^ 32 := by omega
  simp only [PcapPacket.tick] at htick hhigh hlow
  simp only [buildEpb]
  rw [htick, hhigh, hlow]
  rfl

theorem internLinkTypes_requantised (packets : List PcapPacket) :
    internLinkTypes (packets.map PcapPacket.requantised) = internLinkTypes packets := by
  rw [internLinkTypes, List.foldl_map]
  rfl

/-- Whole microseconds make no difference to a writer, also when it fails. -/
theorem write_requantised (format : CaptureFormat) (h : ∀ pkt ∈ packets, pkt.OnClock) :
    format.write (packets.map PcapPacket.requantised) = format.write packets := by
  cases format with
  | pcap =>
    have hrecords : (packets.map PcapPacket.requantised).mapM buildRecord =
        packets.mapM buildRecord :=
      mapM_requantised fun pkt hpkt => buildRecord_requantised (h pkt hpkt)
    simp only [CaptureFormat.write, writePcap, chooseLinkType_requantised,
      checkLinkTypes_requantised, hrecords]
  | pcapng =>
    have hblocks : ∀ interfaces, (packets.map PcapPacket.requantised).mapM (fun pkt => do
          let ifaceId ← ifaceIdOf interfaces pkt.linkType
          buildEpb ifaceId pkt) =
        packets.mapM (fun pkt => do
          let ifaceId ← ifaceIdOf interfaces pkt.linkType
          buildEpb ifaceId pkt) := by
      intro interfaces
      refine mapM_requantised fun pkt _ => ?_
      simp only [buildEpb_requantised]
      rfl
    simp only [CaptureFormat.write, writePcapng, internLinkTypes_requantised, hblocks]

/-- What a writer makes of packets is read back, with whole microseconds. -/
theorem readCapture_write {format : CaptureFormat} {b : Bytes}
    (h0 : ∀ pkt ∈ packets, 0 ≤ pkt.timestamp) (h : format.write packets = .ok b) :
    readCapture b = ⟨packets.map PcapPacket.requantised, none⟩ := by
  cases format with
  | pcap =>
    obtain ⟨chosen, -, hsame, hlink, hfits, rfl⟩ := writePcap_eq_ok.mp h
    exact readCapture_pcapImage hlink hsame fun pkt hpkt => ⟨hfits pkt hpkt, h0 pkt hpkt⟩
  | pcapng =>
    obtain ⟨hwritable, rfl⟩ := writePcapng_eq_ok.mp h
    exact readCapture_pcapngImage hwritable

end Requantised

section Select

variable {edit : Edit} {packets kept : List PcapPacket}

theorem Edit.select_requantised (edit : Edit) (packets : List PcapPacket) :
    edit.select (packets.map PcapPacket.requantised) =
      List.map PcapPacket.requantised <$> edit.select packets := by
  induction packets with
  | nil => rfl
  | cons pkt packets ih =>
    rw [List.map_cons, Edit.select, Edit.select, ih]
    show (edit.keep pkt.linkType pkt.data >>= _) = _
    cases edit.keep pkt.linkType pkt.data with
    | error e => rfl
    | ok wanted =>
      cases edit.select packets with
      | error e => rfl
      | ok kept => cases wanted <;> rfl

theorem Edit.mem_of_select (h : edit.select packets = .ok kept) :
    ∀ pkt ∈ kept, pkt ∈ packets := by
  induction packets generalizing kept with
  | nil =>
    obtain rfl := pure_eq_ok.mp h
    exact fun _ hmem => absurd hmem (List.not_mem_nil)
  | cons pkt packets ih =>
    obtain ⟨wanted, -, h⟩ := bind_eq_ok.mp h
    obtain ⟨rest, hrest, h⟩ := bind_eq_ok.mp h
    obtain rfl := pure_eq_ok.mp h
    intro found hfound
    have hmem := ih hrest found
    cases wanted with
    | false => exact List.mem_cons_of_mem _ (hmem hfound)
    | true => exact List.mem_cons.mpr ((List.mem_cons.mp hfound).imp_right hmem)

theorem Edit.selectFrom_eq_ok {y : Yielded PcapPacket Error} :
    edit.selectFrom y = .ok kept ↔ edit.select y.items = .ok kept ∧ y.failure = none := by
  unfold Edit.selectFrom
  rw [bind_eq_ok]
  cases y.failure with
  | none => simp [pure, Except.pure]
  | some e => simp

theorem Edit.selectFrom_returned (edit : Edit) (packets : List PcapPacket) :
    edit.selectFrom ⟨packets, none⟩ = edit.select packets := by
  unfold Edit.selectFrom
  cases edit.select packets with
  | error e => rfl
  | ok kept => rfl

end Select

/-- A written file is as good as the packets that it was written from. -/
theorem editFiles_of_requantised {b : Bytes} {packets : List PcapPacket} (edit : Edit)
    (edits : List Edit) (h : ∀ pkt ∈ packets, pkt.OnClock)
    (hread : readCapture b = ⟨packets.map PcapPacket.requantised, none⟩) :
    editFiles edit edits b = editPackets edit edits ⟨packets, none⟩ := by
  have hselect : edit.selectFrom (readCapture b) =
      List.map PcapPacket.requantised <$> edit.select packets := by
    rw [hread, Edit.selectFrom_returned, Edit.select_requantised]
  induction edits generalizing edit b packets with
  | nil =>
    rw [editFiles, editPackets, Edit.file, hselect, Edit.selectFrom_returned]
    cases hkept : edit.select packets with
    | error e => rfl
    | ok kept =>
      exact write_requantised edit.format fun pkt hpkt => h pkt (Edit.mem_of_select hkept pkt hpkt)
  | cons next edits ih =>
    rw [editFiles, editPackets, Edit.file, hselect, Edit.selectFrom_returned]
    cases hkept : edit.select packets with
    | error e => rfl
    | ok kept =>
      have hclock : ∀ pkt ∈ kept, pkt.OnClock :=
        fun pkt hpkt => h pkt (Edit.mem_of_select hkept pkt hpkt)
      have hwrite := write_requantised edit.format hclock
      show (edit.format.write (kept.map PcapPacket.requantised) >>= editFiles next edits) =
        (edit.format.write kept >>= fun _ => editPackets next edits ⟨kept, none⟩)
      rw [hwrite]
      cases hfile : edit.format.write kept with
      | error e => rfl
      | ok c =>
        have hagain := readCapture_write (fun pkt hpkt => (hclock pkt hpkt).1) hfile
        refine ih next hclock hagain ?_
        rw [hagain, Edit.selectFrom_returned, Edit.select_requantised]

/-- Edits and conversions of a capture through files of either format, one after the other, come to
the edits of its packets in memory, failures included; rounding adds up nowhere. -/
theorem editFiles_eq_editPackets {data : Bytes}
    (hclock : ∀ pkt ∈ (readCapture data).items, pkt.tick < 2 ^ 64)
    (edit : Edit) (edits : List Edit) :
    editFiles edit edits data = editPackets edit edits (readCapture data) := by
  cases edits with
  | nil => rfl
  | cons next edits =>
    rw [editFiles, editPackets, Edit.file]
    cases hselect : edit.selectFrom (readCapture data) with
    | error e => rfl
    | ok kept =>
      have hkept : ∀ pkt ∈ kept, pkt.OnClock := by
        intro pkt hpkt
        have hitem := Edit.mem_of_select (Edit.selectFrom_eq_ok.mp hselect).1 pkt hpkt
        exact ⟨(captured_of_readCapture hitem).timestamp, hclock pkt hitem⟩
      show (edit.format.write kept >>= editFiles next edits) =
        (edit.format.write kept >>= fun _ => editPackets next edits ⟨kept, none⟩)
      cases hfile : edit.format.write kept with
      | error e => rfl
      | ok c =>
        have hagain := readCapture_write (fun pkt hpkt => (hkept pkt hpkt).1) hfile
        exact editFiles_of_requantised next edits hkept hagain

/-- A big-endian file with nanoseconds, whose record is half of the way between two microseconds. -/
def nanosecondFile : Bytes :=
  [0xa1, 0xb2, 0x3c, 0x4d, 0, 2, 0, 4, 0, 0, 0, 0, 0, 0, 0, 0, 0, 4, 0, 0, 0, 0, 0, 101,
   0, 0, 0, 1, 0, 0, 0x05, 0xdc, 0, 0, 0, 2, 0, 0, 0, 9, 7, 8]

/-- A file converted to blocks and back is the classic file of its packets. -/
theorem editFiles_eq_editPackets_nanoseconds :
    editFiles ⟨fun _ _ => pure true, .pcapng⟩ [⟨fun _ _ => pure true, .pcap⟩] nanosecondFile =
      writePcap [⟨1 + 1500 / 1000000000, 2, 9, 101, [7, 8]⟩] none := by
  rw [editFiles_eq_editPackets (by decide +kernel)]
  decide +kernel

end Rtpkit

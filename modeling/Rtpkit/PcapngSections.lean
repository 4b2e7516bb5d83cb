import Rtpkit.PcapngWire

namespace Rtpkit

open Outcome Chunk

section NewSection

variable {rest : Bytes} (h : shbMagic <+: rest)

include h

theorem slice_of_shbMagic : slice rest 0 (0 + 4) = shbMagic := by
  obtain ⟨tail, rfl⟩ := h
  exact List.take_left' rfl

theorem startSection_of_shbMagic (state state' : PcapngState) :
    startSection state rest 0 = startSection state' rest 0 := by
  rw [startSection, startSection, if_pos (slice_of_shbMagic h), if_pos (slice_of_shbMagic h)]

/-- A Section Header Block is read without the order and the interfaces of the section before. -/
theorem pcapngHead_of_shbMagic (state state' : PcapngState) :
    pcapngHead state rest = pcapngHead state' rest := by
  have hheader : readBlockHeader state rest 0 = readBlockHeader state' rest 0 := by
    rw [readBlockHeader, readBlockHeader, startSection_of_shbMagic h state state']
  rw [pcapngHead, pcapngHead, hheader]

theorem run_of_shbMagic (strict : Bool) (state state' : PcapngState) :
    pcapngFraming.run strict state rest = pcapngFraming.run strict state' rest :=
  Framing.run_eq_of_head_eq (pcapngHead_of_shbMagic h state state')

end NewSection

theorem readPcapng_eq_run {data : Bytes} (h : data ≠ []) :
    readPcapng data = pcapngFraming.run true { order := none, interfaces := [] } data := by
  by_cases hshort : data.length < minBlockSize
  · have hcut : pcapngFraming.head { order := none, interfaces := [] } data =
        .cut (.pcapngBufferTooShort minBlockSize data.length) := if_pos hshort
    rw [readPcapng, readPcapngMode, if_pos hshort, Framing.run_cut h hcut]
    rfl
  · exact readPcapngMode_eq_run true (Nat.le_of_not_lt hshort)

theorem ne_nil_of_readPcapng {data : Bytes} {packets : List PcapPacket}
    (h : readPcapng data = ⟨packets, none⟩) : data ≠ [] := by
  rintro rfl
  cases h

/-- What follows a complete file and starts a section of its own is read as it is alone. -/
theorem readPcapng_append_section {a b : Bytes} {packets : List PcapPacket}
    (ha : readPcapng a = ⟨packets, none⟩) (hb : shbMagic <+: b) :
    readPcapng (a ++ b) = (readPcapng b).prepend packets := by
  have hane := ne_nil_of_readPcapng ha
  have hbne : b ≠ [] := by
    rintro rfl
    cases List.prefix_nil.mp hb
  have hread := ha
  rw [readPcapng_eq_run hane] at hread
  obtain ⟨frames, last, hreads⟩ := Framing.exists_reads (congrArg Yielded.failure hread)
  have hitems := congrArg Yielded.items ((hreads.run_eq true).symm.trans hread)
  rw [readPcapng_eq_run (List.append_ne_nil_of_left_ne_nil hane b), readPcapng_eq_run hbne,
    hreads.run_append true b, run_of_shbMagic hb true last { order := none, interfaces := [] }]
  exact congrArg (Yielded.prepend · _) hitems

/-- The packet of the second section does not get the interface of the first one. -/
theorem readPcapng_append_section_orphan :
    readPcapng ((blockWire shbType shbBody ++ blockWire idbType (idbBody 1)) ++
        (blockWireIn .big shbType (bomBigEndian ++ zeros 12) ++
          blockWireIn .big epbType (zeros 20))) =
      (readPcapng (blockWireIn .big shbType (bomBigEndian ++ zeros 12) ++
        blockWireIn .big epbType (zeros 20))).prepend [] :=
  readPcapng_append_section (by decide +kernel) (by decide +kernel)

end Rtpkit

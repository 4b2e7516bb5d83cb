import Rtpkit.PcapngReadBack

namespace Rtpkit

/-- The packets that the file format holds to half a microsecond. -/
structure PcapPacket.Storable (pkt : PcapPacket) : Prop extends pkt.Writable where
  timestamp : 0 ≤ pkt.timestamp
  tick : pkt.tick < 2 ^ 64

theorem writePcapng_of_writable {packets : List PcapPacket}
    (h : ∀ pkt ∈ packets, pkt.Writable) : writePcapng packets = .ok (pcapngImage packets) :=
  writePcapng_eq_ok.mpr ⟨h, rfl⟩

/-- Writing and reading back keeps every packet, whatever the mix of link types. -/
theorem readPcapng_writePcapng (packets : List PcapPacket)
    (h : ∀ pkt ∈ packets, pkt.Storable) :
    ∃ b again, writePcapng packets = .ok b ∧ readPcapng b = ⟨again, none⟩ ∧
      List.Forall₂ KeepsPacket packets again := by
  have hwritable : ∀ pkt ∈ packets, pkt.Writable := fun pkt hpkt => (h pkt hpkt).toWritable
  refine ⟨_, _, writePcapng_of_writable hwritable, readPcapng_pcapngImage hwritable, ?_⟩
  exact keepsPacket_map_requantised fun pkt hpkt => ⟨(h pkt hpkt).timestamp, (h pkt hpkt).tick⟩

/-- Two link types in turn, and lengths on both sides of the alignment. -/
theorem readPcapng_writePcapng_mixed :
    ∃ b again, writePcapng [⟨1 / 3, 0, 60, 101, [1, 2, 3]⟩, ⟨5 / 2, 0, 4, 1, [4, 5, 6, 7]⟩,
        ⟨4, 0, 1, 101, [8]⟩] = .ok b ∧ readPcapng b = ⟨again, none⟩ ∧
      List.Forall₂ KeepsPacket [⟨1 / 3, 0, 60, 101, [1, 2, 3]⟩, ⟨5 / 2, 0, 4, 1, [4, 5, 6, 7]⟩,
        ⟨4, 0, 1, 101, [8]⟩] again := by
  apply readPcapng_writePcapng
  simp only [List.forall_mem_cons]
  refine ⟨⟨⟨⟨by decide, by decide⟩, by decide⟩, by decide +kernel, by decide +kernel⟩,
    ⟨⟨⟨by decide, by decide⟩, by decide⟩, by decide +kernel, by decide +kernel⟩,
    ⟨⟨⟨by decide, by decide⟩, by decide⟩, by decide +kernel, by decide +kernel⟩, by simp⟩

end Rtpkit

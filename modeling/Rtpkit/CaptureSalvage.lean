import Rtpkit.FlowExtraction
import Rtpkit.FramingUnits
import Rtpkit.LenientRefines

namespace Rtpkit

open Outcome Chunk Alignment

section Damaged

variable {data : Bytes}

theorem fileSized_of_readCaptureLenient : ∀ pkt ∈ (readCaptureLenient data).items, pkt.FileSized := by
  unfold readCaptureLenient
  split
  next => exact (fileSized_of_readMode false data).2
  next => exact (fileSized_of_readMode false data).1

theorem readCaptureLenient_of_readCapture {packets : List PcapPacket}
    (h : readCapture data = ⟨packets, none⟩) : readCaptureLenient data = ⟨packets, none⟩ := by
  unfold readCapture at h
  unfold readCaptureLenient
  split at h
  next hpcapng =>
    rw [if_pos hpcapng, readPcapng_lenient (by rw [h]), h]
  next hpcap =>
    rw [if_neg hpcap, readPcap_lenient (by rw [h]), h]

/-- What a lenient reader gets out of a file, however damaged, a writer refuses only for the reasons
it has with any packets; what it writes is an undamaged file of the same packets, and where the
times have room in the clock they are kept and saving them from there once more changes no byte. -/
theorem salvage_clean (data : Bytes) :
    let packets := (readCaptureLenient data).items
    ((∃ b, writePcapng packets = .ok b) ↔ ∀ pkt ∈ packets, pkt.HasRoom) ∧
    ((∃ b, writePcap packets none = .ok b) ↔
      packets ≠ [] ∧ (∀ pkt ∈ packets, ∀ pkt' ∈ packets, pkt.linkType = pkt'.linkType) ∧
        ∀ pkt ∈ packets, pkt.tick < 2 ^ 32 * 1000000) ∧
    ∀ (format : CaptureFormat) b, format.write packets = .ok b →
      ∃ again, readCapture b = ⟨again, none⟩ ∧ readCaptureLenient b = ⟨again, none⟩ ∧
        List.Forall₂ (fun pkt copy => SameRecord pkt copy ∧
          (pkt.tick < 2 ^ 64 → |copy.timestamp - pkt.timestamp| ≤ 1 / 2000000)) packets again ∧
        ((∀ pkt ∈ packets, pkt.tick < 2 ^ 64) → format.write again = .ok b) := by
  intro packets
  have hsized : ∀ pkt ∈ packets, pkt.FileSized := fileSized_of_readCaptureLenient
  refine ⟨?_, ?_, ?_⟩
  · have hroom : (∀ pkt ∈ packets, pkt.Writable) ↔ ∀ pkt ∈ packets, pkt.HasRoom :=
      forall₂_congr fun pkt hpkt => (hsized pkt hpkt).writable_iff
    simp only [writePcapng_eq_ok, exists_and_left, exists_eq, and_true, hroom]
  · by_cases hclash : LinkTypeClash packets none
    · have hnot : ¬∃ b, writePcap packets none = .ok b := by
        rintro ⟨b, hb⟩
        obtain ⟨e, he, -⟩ := writePcap_raises_iff.mpr hclash
        cases he.symm.trans hb
      refine iff_of_false hnot ?_
      rintro ⟨hne, hsame, -⟩
      exact not_linkTypeClash_none_iff.mpr ⟨hne, hsame⟩ hclash
    · obtain ⟨hne, hsame⟩ := not_linkTypeClash_none_iff.mp hclash
      rw [writePcap_fileSized_iff hne hclash hsized]
      exact ⟨fun hclock => ⟨hne, hsame, hclock⟩, fun h => h.2.2⟩
  · intro format b hwrite
    have htime : ∀ pkt ∈ packets, 0 ≤ pkt.timestamp := fun pkt hpkt => (hsized pkt hpkt).timestamp
    have hread := readCapture_write htime hwrite
    refine ⟨_, hread, readCaptureLenient_of_readCapture hread, ?_, fun hclock => ?_⟩
    · rw [List.forall₂_map_right_iff, List.forall₂_same]
      intro pkt hpkt
      refine ⟨(hsized pkt hpkt).sameRecord_requantised, fun htick => ?_⟩
      exact ((keepsPacket_requantised_iff (htime pkt hpkt)).mpr htick).timestamp
    · rw [write_requantised format fun pkt hpkt => ⟨htime pkt hpkt, hclock pkt hpkt⟩]
      exact hwrite

end Damaged

section Interrupted

/-- The bytes that a file begins with, before its first record. -/
def CaptureFormat.front : CaptureFormat → List PcapPacket → Nat
  | pcap, _ => 24
  | pcapng, packets => 28 + 20 * (internLinkTypes packets).keys.length

/-- The bytes that a reader cannot do without. -/
def CaptureFormat.minimum : CaptureFormat → Nat
  | pcap => globalHeaderSize
  | pcapng => minBlockSize

variable {packets : List PcapPacket} {k : Nat}

end Interrupted

end Rtpkit

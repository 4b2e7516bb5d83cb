import Rtpkit.Capture
import Rtpkit.PcapRoundTrip
import Rtpkit.PcapngRoundTrip

namespace Rtpkit

open Chunk

theorem isPcapng_pcapImage (linkType : Int) (packets : List PcapPacket) :
    isPcapng (pcapImage linkType packets) = false := by
  have hmagic : slice (pcapImage linkType packets) 0 4 = magicLeUs := by
    rw [pcapImage, globalHeaderWire, List.append_assoc, slice_append_left (by decide)]
    rfl
  rw [isPcapng, hmagic]
  rfl

theorem isPcapng_pcapngImage (packets : List PcapPacket) :
    isPcapng (pcapngImage packets) = true := by
  have hmagic : slice (pcapngImage packets) 0 4 = pcapngMagic := by
    rw [pcapngImage, blockWire, List.append_assoc, slice_append_left (by simp), slice_zero,
      List.take_of_length_le (by simp)]
    decide
  rw [isPcapng, hmagic, decide_eq_true rfl]

theorem readCapture_pcapImage {chosen : Int} {packets : List PcapPacket}
    (hlink : Fmt.Fits .I chosen) (hsame : ∀ pkt ∈ packets, pkt.linkType = chosen)
    (h : ∀ pkt ∈ packets, pkt.FitsHeader ∧ 0 ≤ pkt.timestamp) :
    readCapture (pcapImage chosen packets) = ⟨packets.map PcapPacket.requantised, none⟩ := by
  rw [readCapture, isPcapng_pcapImage, if_neg Bool.false_ne_true, readPcap_pcapImage hlink hsame h]

theorem readCapture_pcapngImage {packets : List PcapPacket} (h : ∀ pkt ∈ packets, pkt.Writable) :
    readCapture (pcapngImage packets) = ⟨packets.map PcapPacket.requantised, none⟩ := by
  rw [readCapture, isPcapng_pcapngImage, if_pos rfl, readPcapng_pcapngImage h]

theorem chosenLinkType_of_forall {packets : List PcapPacket} {linkType : Int}
    (hne : packets ≠ []) (hsame : ∀ pkt ∈ packets, pkt.linkType = linkType) :
    chosenLinkType packets none = some linkType := by
  cases packets with
  | nil => exact absurd rfl hne
  | cons pkt packets => exact congrArg some (hsame pkt (by simp))

/-- Packets of one link type are read back alike from the files of the two writers. -/
theorem writers_agree (packets : List PcapPacket) (linkType : Int) (hne : packets ≠ [])
    (hlink : Fmt.Fits .H linkType) (hsame : ∀ pkt ∈ packets, pkt.linkType = linkType)
    (hfits : ∀ pkt ∈ packets, pkt.FitsRecord) :
    ∃ b again, writePcap packets none = .ok b ∧ readCapture b = ⟨again, none⟩ ∧
      (∀ b', writePcapng packets = .ok b' → readCapture b' = ⟨again, none⟩) ∧
      ((∃ b', writePcapng packets = .ok b') ↔ ∀ pkt ∈ packets, pkt.FitsBlock) := by
  have hlink' : Fmt.Fits .I linkType := by
    rw [Fmt.fits_H] at hlink
    rw [Fmt.fits_I]
    omega
  have hwrite : writePcap packets none = .ok (pcapImage linkType packets) :=
    writePcap_eq_ok.mpr ⟨linkType, chosenLinkType_of_forall hne hsame, hsame, hlink',
      fun pkt hpkt => (hfits pkt hpkt).fitsHeader, rfl⟩
  have hread := readCapture_pcapImage hlink' hsame
    fun pkt hpkt => ⟨(hfits pkt hpkt).fitsHeader, (hfits pkt hpkt).timestamp⟩
  refine ⟨_, _, hwrite, hread, ?_, ?_⟩
  · intro b' hb'
    obtain ⟨hwritable, rfl⟩ := writePcapng_eq_ok.mp hb'
    exact readCapture_pcapngImage hwritable
  · constructor
    · rintro ⟨b', hb'⟩ pkt hpkt
      exact ((writePcapng_eq_ok.mp hb').1 pkt hpkt).toFitsBlock
    · intro hblock
      refine ⟨_, writePcapng_of_writable fun pkt hpkt => ⟨hblock pkt hpkt, ?_⟩⟩
      rw [hsame pkt hpkt]
      exact hlink

/-- A tie at the end of a second, and a tie after an odd number of seconds. -/
theorem writers_agree_ties :
    ∃ b again, writePcap [⟨3999999 / 2000000, 0, 60, 101, [1, 2, 3]⟩,
        ⟨2000005 / 2000000, 0, 4, 101, []⟩] none = .ok b ∧ readCapture b = ⟨again, none⟩ ∧
      (∀ b', writePcapng [⟨3999999 / 2000000, 0, 60, 101, [1, 2, 3]⟩,
        ⟨2000005 / 2000000, 0, 4, 101, []⟩] = .ok b' → readCapture b' = ⟨again, none⟩) ∧
      ((∃ b', writePcapng [⟨3999999 / 2000000, 0, 60, 101, [1, 2, 3]⟩,
        ⟨2000005 / 2000000, 0, 4, 101, []⟩] = .ok b') ↔
        ∀ pkt ∈ [(⟨3999999 / 2000000, 0, 60, 101, [1, 2, 3]⟩ : PcapPacket),
          ⟨2000005 / 2000000, 0, 4, 101, []⟩], pkt.FitsBlock) := by
  apply writers_agree _ 101 (by simp) (by decide) (by simp)
  simp only [List.forall_mem_cons]
  exact ⟨⟨by decide, by decide, by norm_num, by norm_num⟩,
    ⟨by decide, by decide, by norm_num, by norm_num⟩, by simp⟩

end Rtpkit

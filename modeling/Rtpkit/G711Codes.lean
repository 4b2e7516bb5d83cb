import Rtpkit.G711RoundTrip

namespace Rtpkit

open Outcome

namespace G711

section Leftmost

variable {values : List Int} {sample : Int}

theorem nearestIndex_of_mem (hs : values.Pairwise (· ≤ ·)) (hmem : sample ∈ values) :
    nearestIndex values sample = Bisect.left values sample := by
  have hsplit := Bisect.splits_left hs.sortedLE sample
  obtain ⟨hk, hvalue⟩ := hsplit.getElem_of_mem hs.sortedLE hmem
  rcases nearestIndex_cases values sample with ⟨hfront, h⟩ | ⟨hback, -⟩ | ⟨hfront, -, hinner⟩
  · rw [h, hfront]
  · omega
  · have hbelow := hsplit.below (Bisect.left values sample - 1) (by omega) (by omega)
    rw [List.getD_eq_getElem _ _ hk, List.getD_eq_getElem _ _ (by omega), hvalue] at hinner
    rcases hinner with ⟨hlower, -⟩ | ⟨-, h⟩
    · omega
    · exact h

theorem nearestIndex_le_left (values : List Int) (sample : Int) :
    nearestIndex values sample ≤ Bisect.left values sample := by
  rcases nearestIndex_cases values sample with ⟨-, h⟩ | ⟨hback, h⟩ | ⟨-, -, ⟨-, h⟩ | ⟨-, h⟩⟩
  · omega
  · omega
  · omega
  · omega

theorem left_le_nearestIndex_add_one (values : List Int) (sample : Int) :
    Bisect.left values sample ≤ nearestIndex values sample + 1 := by
  rcases nearestIndex_cases values sample with ⟨hfront, h⟩ | ⟨hback, h⟩ | ⟨-, -, ⟨-, h⟩ | ⟨-, h⟩⟩
  · omega
  · omega
  · omega
  · omega

/-- Between the same two entries, the larger sample is the nearer one to the upper entry. -/
theorem nearestIndex_mono (hs : values.Pairwise (· ≤ ·)) {sample sample' : Int}
    (hle : sample ≤ sample') : nearestIndex values sample ≤ nearestIndex values sample' := by
  have hsplit := Bisect.splits_left hs.sortedLE sample
  have hmono := hsplit.mono (Bisect.splits_left hs.sortedLE sample') hle
  have hleft := nearestIndex_le_left values sample
  have hright := left_le_nearestIndex_add_one values sample'
  rcases Nat.lt_or_eq_of_le hmono with hlt | heq
  · omega
  · rcases nearestIndex_cases values sample' with ⟨hfront, h⟩ | ⟨hback, h⟩ | ⟨hfront, hback, hinner⟩
    · omega
    · rcases nearestIndex_cases values sample with ⟨hfront', -⟩ | ⟨-, h'⟩ | ⟨-, hback', -⟩
      · omega
      · omega
      · exact absurd (heq.trans hback) hback'
    · rcases hinner with ⟨hlower, h⟩ | ⟨-, h⟩
      · rcases nearestIndex_cases values sample with ⟨hfront', -⟩ | ⟨hback', -⟩ | ⟨-, -, hinner'⟩
        · omega
        · exact absurd (heq.symm.trans hback') hback
        · rw [heq] at hinner'
          rcases hinner' with ⟨-, h'⟩ | ⟨hupper, -⟩
          · omega
          · omega
      · omega

end Leftmost

section Codes

variable (table : DecodeTable)

theorem pairwise_allCodes : allCodes.Pairwise (·.toNat < ·.toNat) := by
  rw [allCodes, List.pairwise_map]
  refine List.pairwise_lt_range.imp_of_mem fun hm hn hlt => ?_
  rw [UInt8.toNat_ofNat_of_lt' (List.mem_range.mp hm),
    UInt8.toNat_ofNat_of_lt' (List.mem_range.mp hn)]
  exact hlt

theorem nodup_allCodes : allCodes.Nodup :=
  pairwise_allCodes.imp fun hlt heq => absurd (congrArg UInt8.toNat heq) hlt.ne

theorem nodup_codesByValue : (codesByValue table).Nodup :=
  (List.mergeSort_perm _ _).nodup_iff.mpr nodup_allCodes

/-- The sort leaves codes with equal entries in their order. -/
theorem codesByValue_stable {code other : UInt8} (hlt : code.toNat < other.toNat)
    (heq : table.entry code = table.entry other) : [code, other].Sublist (codesByValue table) := by
  have hne : code ≠ other := fun h => absurd (congrArg UInt8.toNat h) hlt.ne
  have hsubperm : [code, other].Subperm allCodes :=
    List.subperm_of_subset (by simp [hne]) fun code _ => mem_allCodes code
  have hpair : [code, other].Sublist allCodes :=
    List.sublist_of_subperm_of_pairwise hsubperm (by simp [hlt]) pairwise_allCodes
  refine List.pair_sublist_mergeSort (fun a b c hab hbc => ?_) (fun a b => ?_) ?_ hpair
  · exact decide_eq_true ((of_decide_eq_true hab).trans (of_decide_eq_true hbc))
  · rw [Bool.or_eq_true]
    exact (le_total (table.entry a) (table.entry b)).imp decide_eq_true decide_eq_true
  · exact decide_eq_true heq.le

theorem getElem_codesByValue_of_mem {sample : Int} (hmem : sample ∈ sortedValues table) :
    ∃ h : Bisect.left (sortedValues table) sample < (codesByValue table).length,
      (codesByValue table)[Bisect.left (sortedValues table) sample] = nearestCode table sample := by
  have hs := pairwise_sortedValues table
  obtain ⟨hk, -⟩ := (Bisect.splits_left hs.sortedLE sample).getElem_of_mem hs.sortedLE hmem
  have hk' : Bisect.left (sortedValues table) sample < (codesByValue table).length := by
    simpa only [sortedValues, List.length_map] using hk
  refine ⟨hk', ?_⟩
  rw [nearestCode, nearestIndex_of_mem hs hmem, List.getD_eq_getElem _ _ hk']

/-- Of the codes that stand for one sample, the sample is encoded as the lowest. -/
theorem nearestCode_entry_le (code other : UInt8) (heq : table.entry other = table.entry code) :
    nearestCode table (table.entry code) ≤ other := by
  rw [UInt8.le_iff_toNat_le]
  by_contra hlt
  have hentry := entry_nearestCode_entry table code
  have hsublist := codesByValue_stable table (not_le.mp hlt) (heq.trans hentry.symm)
  have hmem : table.entry code ∈ sortedValues table :=
    List.mem_map_of_mem (mem_codesByValue table code)
  obtain ⟨hk, hnearest⟩ := getElem_codesByValue_of_mem table hmem
  have hsplit := Bisect.splits_left (pairwise_sortedValues table).sortedLE (table.entry code)
  -- whatever comes before the chosen code in the sorted list has a lower entry
  have hbefore : (codesByValue table).Pairwise fun a b =>
      ¬(a = other ∧ b = nearestCode table (table.entry code)) := by
    rw [List.pairwise_iff_getElem]
    rintro i j hi hj hij ⟨hother, hcode⟩
    have hplace := (nodup_codesByValue table).getElem_inj_iff.mp (hcode.trans hnearest.symm)
    have hbelow := hsplit.below i (by simpa only [sortedValues, List.length_map] using hi) (by omega)
    simp only [sortedValues, List.getElem_map, hother, heq, lt_self_iff_false] at hbelow
  exact List.pairwise_iff_forall_sublist.mp hbefore hsublist ⟨rfl, rfl⟩

theorem nearestCode_mono {sample sample' : Int} (hle : sample ≤ sample') :
    table.entry (nearestCode table sample) ≤ table.entry (nearestCode table sample') := by
  have hs := pairwise_sortedValues table
  have hne := sortedValues_ne_nil table
  rw [entry_nearestCode, entry_nearestCode,
    List.getD_eq_getElem _ _ (nearestIndex_lt hs hne sample),
    List.getD_eq_getElem _ _ (nearestIndex_lt hs hne sample')]
  exact hs.sortedLE.getElem_le_getElem_of_le (nearestIndex_mono hs hle)

theorem entry_of_map {decodeByte : UInt8 → Int} (hentries : table.entries = allCodes.map decodeByte)
    (code : UInt8) : table.entry code = decodeByte code := by
  simp only [DecodeTable.entry, List.get_eq_getElem, hentries, allCodes, List.getElem_map,
    List.getElem_range, UInt8.ofNat_toNat]

end Codes

/-- The code of the segment that a sample lies in, and of the step there. -/
def ulawStepCode (sample : Int) : UInt8 :=
  let biased := sample.natAbs + bias
  let exponent := Nat.log2 (biased / 128)
  let mantissa := biased / (8 * 2 ^ exponent) - 16
  ~~~UInt8.ofNat ((if sample < 0 then 128 else 0) + 16 * exponent + mantissa)

def alawStepCode (sample : Int) : UInt8 :=
  let seg := Nat.log2 (sample.natAbs / 128)
  let step := sample.natAbs / (16 * 2 ^ (seg - 1)) % 16
  UInt8.ofNat ((if sample < 0 then 0 else 128) + 16 * seg + step) ^^^ 0x55

theorem ulawStepCode_decode (code : UInt8) :
    ulawStepCode (ulawDecodeByte code) = if code = 0x7f then 0xff else code := by
  have hall : ∀ n < 256, ulawStepCode (ulawDecodeByte (UInt8.ofNat n)) =
      if UInt8.ofNat n = 0x7f then 0xff else UInt8.ofNat n := by decide +kernel
  have h := hall code.toNat code.toNat_lt
  rwa [UInt8.ofNat_toNat] at h

theorem alawStepCode_decode (code : UInt8) : alawStepCode (alawDecodeByte code) = code := by
  have hall : ∀ n < 256, alawStepCode (alawDecodeByte (UInt8.ofNat n)) = UInt8.ofNat n := by
    decide +kernel
  have h := hall code.toNat code.toNat_lt
  rwa [UInt8.ofNat_toNat] at h

theorem entry_ulawDecode (code : UInt8) : ulawDecode.entry code = ulawDecodeByte code :=
  entry_of_map ulawDecode rfl code

theorem entry_alawDecode (code : UInt8) : alawDecode.entry code = alawDecodeByte code :=
  entry_of_map alawDecode rfl code

theorem nearestCode_alaw (code : UInt8) :
    nearestCode alawDecode (alawDecode.entry code) = code := by
  have hentry := congrArg alawStepCode (entry_nearestCode_entry alawDecode code)
  rwa [entry_alawDecode, entry_alawDecode, alawStepCode_decode, alawStepCode_decode,
    ← entry_alawDecode] at hentry

/-- The two codes of zero, of which the lower one is the negative one, are the only pair. -/
theorem nearestCode_ulaw (code : UInt8) : nearestCode ulawDecode (ulawDecode.entry code) =
    if code = 0xff then 0x7f else code := by
  have hstep := congrArg ulawStepCode (entry_nearestCode_entry ulawDecode code)
  have hzero : ulawDecode.entry 0x7f = ulawDecode.entry 0xff := by decide +kernel
  rw [entry_ulawDecode, entry_ulawDecode, ulawStepCode_decode, ulawStepCode_decode,
    ← entry_ulawDecode] at hstep
  by_cases hlast : code = 0xff
  · subst hlast
    have hle := nearestCode_entry_le ulawDecode 0xff 0x7f hzero
    rw [ite_self] at hstep
    rw [if_pos rfl]
    by_contra hne
    rw [if_neg hne] at hstep
    rw [hstep] at hle
    exact absurd hle (by decide)
  · rw [if_neg hlast]
    have hle := nearestCode_entry_le ulawDecode code code rfl
    by_cases hfirst : code = 0x7f
    · subst hfirst
      rw [if_pos rfl] at hstep
      by_contra hne
      rw [if_neg hne] at hstep
      rw [hstep] at hle
      exact absurd hle (by decide)
    · rw [if_neg hfirst] at hstep
      split at hstep
      next => exact absurd hstep.symm hlast
      next => exact hstep

theorem encode_decode (table : DecodeTable) (h : table.Is16Bit) (sender receiver : ByteOrder)
    (data : Bytes) : ∃ pcm, decode receiver data table = .ok pcm ∧
      encode sender pcm (buildEncodeLut table) =
        .ok (data.map fun code => nearestCode table (table.entry code)) := by
  refine ⟨_, decode_eq h receiver data, ?_⟩
  rw [encode_pcmOf sender fun sample hsample => ?_, List.map_map]
  · rfl
  · obtain ⟨code, -, rfl⟩ := List.mem_map.mp hsample
    exact h.entry code

/-- Codes survive a transcoding to PCM and back: each comes out as the lowest code with the same
sample, which is the code itself but for one of the two zeros of the µ-law. -/
theorem transcoding_keeps_codes (sender receiver : ByteOrder) (data : Bytes) :
    (∀ table : DecodeTable, table.Is16Bit → ∃ pcm codes,
      decode receiver data table = .ok pcm ∧
      encode sender pcm (buildEncodeLut table) = .ok codes ∧
      List.Forall₂ (fun code again => table.entry again = table.entry code ∧
        ∀ other, table.entry other = table.entry code → again ≤ other) data codes) ∧
    (∃ pcm, decodePcma receiver data = .ok pcm ∧ encodePcma sender pcm = .ok data) ∧
    (∃ pcm, decodePcmu receiver data = .ok pcm ∧
      encodePcmu sender pcm = .ok (data.map fun code => if code = 0xff then 0x7f else code)) := by
  refine ⟨fun table h => ?_, ?_, ?_⟩
  · obtain ⟨pcm, hdecode, hencode⟩ := encode_decode table h sender receiver data
    refine ⟨pcm, _, hdecode, hencode, ?_⟩
    rw [List.forall₂_map_right_iff, List.forall₂_same]
    intro code _
    exact ⟨entry_nearestCode_entry table code, nearestCode_entry_le table code⟩
  · obtain ⟨pcm, hdecode, hencode⟩ :=
      encode_decode alawDecode alawDecode_is16Bit sender receiver data
    simp only [nearestCode_alaw, List.map_id'] at hencode
    exact ⟨pcm, hdecode, hencode⟩
  · obtain ⟨pcm, hdecode, hencode⟩ :=
      encode_decode ulawDecode ulawDecode_is16Bit sender receiver data
    simp only [nearestCode_ulaw] at hencode
    exact ⟨pcm, hdecode, hencode⟩

end G711

end Rtpkit

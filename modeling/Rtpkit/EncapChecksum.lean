import Rtpkit.Checksum
import Rtpkit.DecapLayout
import Rtpkit.EncapImage

namespace Rtpkit

open Outcome Chunk EndAroundCarry

/-- One turn of the loop that folds the carries. -/
def foldTurn (total : Nat) : Nat := (total &&& 0xFFFF) + (total >>> 16)

theorem foldTurn_eq : foldTurn = addBack (2 ^ 16) := by
  funext total
  have hlow : total &&& 0xFFFF = total % 2 ^ 16 := Nat.and_two_pow_sub_one_eq_mod total 16
  rw [foldTurn, addBack, hlow, Nat.shiftRight_eq_div_pow]

/-- The loop ends after some turns, and not before no carry is left. -/
theorem exists_foldTurn_iterate (total : Nat) :
    ∃ turns, foldTurn^[turns] total = foldCarries total ∧ foldCarries total >>> 16 = 0 ∧
      ∀ i < turns, foldTurn^[i] total >>> 16 ≠ 0 := by
  obtain ⟨turns, hend, hbefore⟩ := exists_iterate_addBack (show 1 < 2 ^ 16 by decide) total
  have hlt := (fold_spec (show 1 < 2 ^ 16 by decide) total).1
  rw [foldTurn_eq, foldCarries_eq]
  refine ⟨turns, hend, ?_, ?_⟩
  · rw [Nat.shiftRight_eq_div_pow]
    omega
  · intro i hi
    have hcarry := hbefore i hi
    rw [Nat.shiftRight_eq_div_pow]
    omega

theorem length_packed_mod (ip : IpAddress) : ip.packed.length % 2 = 0 := by
  rw [length_packed]
  split
  next => rfl
  next => rfl

theorem length_pseudoHeader_mod (src dst : IpAddress) (length : Nat) :
    (pseudoHeader src dst length).length % 2 = 0 := by
  have hsrc := length_packed_mod src
  have hdst := length_packed_mod dst
  rw [pseudoHeader]
  split
  next =>
    simp only [List.length_append, Fmt.length_wire, Fmt.size_B, Fmt.size_H]
    omega
  next =>
    simp only [List.length_append, Fmt.length_wire, Fmt.size_B, Fmt.size_I, zeros,
      List.length_replicate]
    omega

/-- The segment and its pseudo-header sum up to all ones. -/
theorem udpWire_sum (src dst : IpAddress) (srcPort dstPort : Int) (payload : Bytes) :
    onesComplementSum (pseudoHeader src dst (udpWire src dst srcPort dstPort payload).length ++
      udpWire src dst srcPort dstPort payload) = 0xFFFF := by
  have hpseudo := length_pseudoHeader_mod src dst (8 + payload.length)
  have heven : (pseudoHeader src dst (8 + payload.length) ++
      udpFields srcPort dstPort (8 + payload.length)).length % 2 = 0 := by
    rw [List.length_append, length_udpFields]
    omega
  have hsum := onesComplementSum_nonzero_checksum16 heven payload
  rw [List.append_assoc, List.append_assoc] at hsum
  rw [length_udpWire]
  exact hsum

theorem ipv4Head_sum (src dst : IpAddress) (totalLength : Nat) :
    onesComplementSum (ipv4Head src dst totalLength) = 0xFFFF :=
  onesComplementSum_checksum16 (by rw [length_ipv4Fields]) _

theorem udpChecksumOf_ne_zero (pseudo fields payload : Bytes) :
    udpChecksumOf pseudo fields payload ≠ 0 := by
  rw [udpChecksumOf]
  split
  next h => exact h
  next => decide

theorem halfAt_udpWire (src dst : IpAddress) (srcPort dstPort : Int) (payload : Bytes) :
    halfAt (udpWire src dst srcPort dstPort payload) 6 ≠ 0 := by
  have hstands := standsAt_self (udpWire src dst srcPort dstPort payload)
  rw [udpWire, standsAt_append, standsAt_append, length_udpFields] at hstands
  obtain ⟨-, hchecksum, -⟩ := hstands
  have hfits := Fmt.fits_H.mp (udpChecksumOf_fits (pseudoHeader src dst (8 + payload.length))
    (udpFields srcPort dstPort (8 + payload.length)) payload)
  have hfield := halfAt_of_standsAt (by omega) hchecksum
  rw [Nat.zero_add] at hfield
  exact hfield ▸ udpChecksumOf_ne_zero _ _ _

/-- In every frame that is built the checksums verify, and the loop that folds the carries comes
to an end for every number. -/
theorem encapsulateUdp_checksums :
    (∀ total, ∃ turns, foldTurn^[turns] total = foldCarries total ∧
      foldCarries total >>> 16 = 0 ∧ ∀ i < turns, foldTurn^[i] total >>> 16 ≠ 0) ∧
    ∀ (lib : IpAddressModule) linkType srcIp dstIp srcPort dstPort payload frame,
      encapsulateUdp lib linkType srcIp dstIp srcPort dstPort payload = .ok frame →
      ∃ src dst head segment,
        lib.ipAddress srcIp = some src ∧ lib.ipAddress dstIp = some dst ∧
        frame = linkHead linkType (ethertypeOf src) ++ (head ++ segment) ∧
        head.length = (if src.version = 4 then 20 else 40) ∧ segment.drop 8 = payload ∧
        onesComplementSum (pseudoHeader src dst segment.length ++ segment) = 0xFFFF ∧
        halfAt segment 6 ≠ 0 ∧ (src.version = 4 → onesComplementSum head = 0xFFFF) := by
  refine ⟨exists_foldTurn_iterate, ?_⟩
  intro lib linkType srcIp dstIp srcPort dstPort payload frame h
  obtain ⟨src, dst, hsrc, hdst, hvalid, -, rfl⟩ := encapsulateUdp_eq_ok_iff.mp h
  refine ⟨src, dst, _, udpWire src dst srcPort dstPort payload, hsrc, hdst, rfl,
    length_ipHead hvalid.version _, ?_, udpWire_sum src dst srcPort dstPort payload,
    halfAt_udpWire src dst srcPort dstPort payload, ?_⟩
  · rw [udpWire, ← List.append_assoc, List.drop_left' (by simp)]
  · intro hv
    rw [ipHead, if_pos hv]
    exact ipv4Head_sum src dst _

/-- A segment whose words sum up to all ones before its checksum is there. -/
theorem encapsulateUdp_checksums_zero :
    ∃ src dst head segment,
      frameOf dltRaw (.v4 ⟨zeros 4, rfl⟩) (.v4 ⟨zeros 4, rfl⟩) 0 0 [0xff, 0xda] =
        linkHead dltRaw (ethertypeOf src) ++ (head ++ segment) ∧
      onesComplementSum (pseudoHeader src dst segment.length ++ segment) = 0xFFFF ∧
      halfAt segment 6 ≠ 0 ∧ (src.version = 4 → onesComplementSum head = 0xFFFF) := by
  have hbuilt : encapsulateUdp sampleAddresses dltRaw "0.0.0.0" "0.0.0.0" 0 0 [0xff, 0xda] =
      .ok (frameOf dltRaw (.v4 ⟨zeros 4, rfl⟩) (.v4 ⟨zeros 4, rfl⟩) 0 0 [0xff, 0xda]) := by
    decide +kernel
  obtain ⟨src, dst, head, segment, -, -, hframe, -, -, hsum, hfield, hhead⟩ :=
    encapsulateUdp_checksums.2 _ _ _ _ _ _ _ _ hbuilt
  exact ⟨src, dst, head, segment, hframe, hsum, hfield, hhead⟩

end Rtpkit

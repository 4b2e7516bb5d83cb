import Rtpkit.PcapModel
import Rtpkit.RoundHalfEven

namespace Rtpkit

/-- The nearest whole number of microseconds. -/
def PcapPacket.tick (pkt : PcapPacket) : ℤ := roundHalfEven (pkt.timestamp * 1000000)

/-- What a file with 64 bits of microseconds holds of a packet. -/
def PcapPacket.requantised (pkt : PcapPacket) : PcapPacket where
  timestamp := ((pkt.tick % 2 ^ 64 : ℤ) : ℚ) / 1000000
  capturedLength := pkt.data.length
  originalLength := pkt.originalLength
  linkType := pkt.linkType
  data := pkt.data

/-- The second packet is the first one again, but for half a microsecond. -/
structure KeepsPacket (pkt again : PcapPacket) : Prop where
  linkType : again.linkType = pkt.linkType
  originalLength : again.originalLength = pkt.originalLength
  data : again.data = pkt.data
  capturedLength : again.capturedLength = pkt.data.length
  timestamp : |again.timestamp - pkt.timestamp| ≤ 1 / 2000000

theorem tick_nonneg {pkt : PcapPacket} (h : 0 ≤ pkt.timestamp) : 0 ≤ pkt.tick :=
  roundHalfEven_nonneg (by linarith)

theorem abs_tick_div_sub_le (pkt : PcapPacket) :
    |(pkt.tick : ℚ) / 1000000 - pkt.timestamp| ≤ 1 / 2000000 := by
  have h := abs_roundHalfEven_div_sub_le pkt.timestamp (show (0 : ℚ) < 1000000 by norm_num)
  rwa [show (2 : ℚ) * 1000000 = 2000000 by norm_num] at h

theorem tick_mod_of_lt {pkt : PcapPacket} (h0 : 0 ≤ pkt.timestamp) (hlt : pkt.tick < 2 ^ 64) :
    pkt.tick % 2 ^ 64 = pkt.tick := Int.emod_eq_of_lt (tick_nonneg h0) hlt

@[simp] theorem tick_requantised (pkt : PcapPacket) : pkt.requantised.tick = pkt.tick % 2 ^ 64 := by
  have hscale : ((pkt.tick % 2 ^ 64 : ℤ) : ℚ) / 1000000 * 1000000 = (pkt.tick % 2 ^ 64 : ℤ) :=
    div_mul_cancel₀ _ (by norm_num)
  simp only [PcapPacket.tick, PcapPacket.requantised] at hscale ⊢
  rw [hscale, roundHalfEven_intCast]

/-- The counter of microseconds has room exactly when the packet is kept. -/
theorem keepsPacket_requantised_iff {pkt : PcapPacket} (h0 : 0 ≤ pkt.timestamp) :
    KeepsPacket pkt pkt.requantised ↔ pkt.tick < 2 ^ 64 := by
  constructor
  · intro h
    by_contra hlt
    have hmod := Int.emod_lt_of_pos pkt.tick (show (0 : ℤ) < 2 ^ 64 by norm_num)
    have hfar : (pkt.tick % 2 ^ 64 : ℤ) + 2 ≤ pkt.tick := by omega
    have hfar' : ((pkt.tick % 2 ^ 64 : ℤ) : ℚ) + 2 ≤ pkt.tick := by exact_mod_cast hfar
    have hnear := (abs_le.mp (abs_tick_div_sub_le pkt)).2
    have hkept := (abs_le.mp h.timestamp).1
    simp only [PcapPacket.requantised] at hkept
    have hdiv : ((pkt.tick % 2 ^ 64 : ℤ) : ℚ) / 1000000 + 2 / 1000000 ≤ pkt.tick / 1000000 := by
      rw [← add_div]
      exact div_le_div_of_nonneg_right hfar' (by norm_num)
    linarith
  · intro hlt
    have hnear := abs_tick_div_sub_le pkt
    rw [← tick_mod_of_lt h0 hlt] at hnear
    exact ⟨rfl, rfl, rfl, rfl, hnear⟩

theorem keepsPacket_map_requantised {packets : List PcapPacket}
    (h : ∀ pkt ∈ packets, 0 ≤ pkt.timestamp ∧ pkt.tick < 2 ^ 64) :
    List.Forall₂ KeepsPacket packets (packets.map PcapPacket.requantised) := by
  rw [List.forall₂_map_right_iff, List.forall₂_same]
  intro pkt hpkt
  exact (keepsPacket_requantised_iff (h pkt hpkt).1).mpr (h pkt hpkt).2

end Rtpkit

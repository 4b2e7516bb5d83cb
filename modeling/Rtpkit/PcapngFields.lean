import Rtpkit.PcapngFraming

namespace Rtpkit

open Outcome Chunk

/-- The 32-bit number at an offset. -/
def wordAt (order : ByteOrder) (data : Bytes) (off : Nat) : Nat :=
  BigEndian.decode (order.arrange (slice data off (off + 4)))

theorem unpackIn_I_eq_ok {order : ByteOrder} {data : Bytes} {off n : Nat} :
    unpackIn order .I data off = .ok n ↔ off + 4 ≤ data.length ∧ n = wordAt order data off :=
  unpackIn_eq_ok

theorem parseIfTsresol_pos {order : ByteOrder} {options : Bytes} {resolution : Nat}
    (h : parseIfTsresol order options = .ok resolution) : 0 < resolution := by
  obtain ⟨found, -, h⟩ := bind_eq_ok.mp h
  split at h
  next =>
    obtain rfl := pure_eq_ok.mp h
    decide
  next =>
    obtain ⟨raw, -, h⟩ := bind_eq_ok.mp h
    obtain rfl := pure_eq_ok.mp h
    split
    next => exact Nat.two_pow_pos _
    next => exact Nat.pow_pos (by decide)

theorem parseIdb_pos {body : Bytes} {order : ByteOrder} {iface : Interface}
    (h : parseIdb body order = .ok iface) : 0 < iface.tsResolution := by
  obtain ⟨_, -, h⟩ := bind_eq_ok.mp h
  obtain ⟨linkType, -, h⟩ := bind_eq_ok.mp h
  obtain ⟨resolution, hresolution, h⟩ := bind_eq_ok.mp h
  obtain rfl := pure_eq_ok.mp h
  exact parseIfTsresol_pos hresolution

/-- An Enhanced Packet Block yields a packet when its data and its interface are there. -/
theorem parseEpb_eq_ok {body : Bytes} {order : ByteOrder} {interfaces : List Interface}
    {pkt : PcapPacket} :
    parseEpb body order interfaces = .ok pkt ↔ ∃ iface,
      20 + wordAt order body 12 ≤ body.length ∧
      interfaces[wordAt order body 0]? = some iface ∧
      pkt = {
        timestamp := ((wordAt order body 4 <<< 32 ||| wordAt order body 8 : Nat) : ℚ) /
          iface.tsResolution
        capturedLength := wordAt order body 12
        originalLength := wordAt order body 16
        linkType := iface.linkType
        data := slice body 20 (20 + wordAt order body 12) } := by
  constructor
  · intro h
    obtain ⟨_, -, h⟩ := bind_eq_ok.mp h
    obtain ⟨ifaceId, hid, h⟩ := bind_eq_ok.mp h
    obtain ⟨tsHigh, hhigh, h⟩ := bind_eq_ok.mp h
    obtain ⟨tsLow, hlow, h⟩ := bind_eq_ok.mp h
    obtain ⟨capLen, hcap, h⟩ := bind_eq_ok.mp h
    obtain ⟨origLen, horig, h⟩ := bind_eq_ok.mp h
    obtain ⟨_, hroom, h⟩ := bind_eq_ok.mp h
    obtain ⟨-, rfl⟩ := unpackIn_I_eq_ok.mp hid
    obtain ⟨-, rfl⟩ := unpackIn_I_eq_ok.mp hhigh
    obtain ⟨-, rfl⟩ := unpackIn_I_eq_ok.mp hlow
    obtain ⟨-, rfl⟩ := unpackIn_I_eq_ok.mp hcap
    obtain ⟨-, rfl⟩ := unpackIn_I_eq_ok.mp horig
    have hroom := require_eq_ok.mp hroom
    cases hiface : interfaces[wordAt order body 0]? with
    | none =>
      rw [hiface] at h
      cases h
    | some iface =>
      rw [hiface] at h
      exact ⟨iface, hroom, rfl, (pure_eq_ok.mp h).symm⟩
  · rintro ⟨iface, hroom, hiface, rfl⟩
    have hword : ∀ i, i + 4 ≤ 20 → unpackIn order .I body i = .ok (wordAt order body i) :=
      fun i hi => unpackIn_I_eq_ok.mpr ⟨by omega, rfl⟩
    rw [parseEpb, require_pos (by omega), bind_ok, hword 0 (by decide), bind_ok,
      hword 4 (by decide), bind_ok, hword 8 (by decide), bind_ok, hword 12 (by decide), bind_ok,
      hword 16 (by decide), bind_ok]
    dsimp only
    rw [require_pos hroom, bind_ok, hiface]
    rfl

end Rtpkit

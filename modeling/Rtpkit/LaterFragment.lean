import Rtpkit.ExtChain

namespace Rtpkit

/-- An IP packet that is a fragment but not the first one. -/
def IsLaterFragment (ethertype : Nat) (ip : Bytes) : Prop :=
  (ethertype = ethertypeIpv4 ∧ 8 ≤ ip.length ∧ halfAt ip 6 &&& 0x1FFF ≠ 0) ∨
  (ethertype = ethertypeIpv6 ∧ 40 ≤ ip.length ∧ ∃ headers last stop offset,
    ExtChain ip (byteAt ip 6) 40 headers last stop ∧ headers.length ≤ maxIpv6ExtHeaders ∧
    (ipv6Fragment, offset) ∈ headers ∧ halfAt ip (offset + 2) >>> 3 ≠ 0)

def HoldsLaterFragment (linkType : Int) (frame : Bytes) : Prop :=
  ∃ ethertype ipStart, linkLayer linkType frame = some (ethertype, ipStart) ∧
    IsLaterFragment ethertype (frame.drop ipStart)

/-- A later fragment yields no datagram exactly when its headers announce no UDP header that the
bytes behind them have room for; the fragment offset itself is never read. -/
theorem laterFragment_none_iff (lib : IpAddressModule) (linkType : Int) (frame : Bytes) :
    (HoldsLaterFragment linkType frame → decapsulateUdp lib linkType frame = .ok none) ↔
      ∀ ethertype ipStart start, linkLayer linkType frame = some (ethertype, ipStart) →
        IsLaterFragment ethertype (frame.drop ipStart) →
        UdpHeaderAt ethertype (frame.drop ipStart) start →
        segmentStop ethertype (frame.drop ipStart) < start + 8 := by
  rw [decapsulateUdp_eq_none_iff_headerAt]
  constructor
  · intro h ethertype ipStart start hlink hfragment hheader
    exact h ⟨ethertype, ipStart, hlink, hfragment⟩ ethertype ipStart start hlink hheader
  · rintro h ⟨ethertype, ipStart, hlink, hfragment⟩ ethertype' ipStart' start hlink' hheader
    cases hlink.symm.trans hlink'
    exact h ethertype ipStart start hlink hfragment hheader

/-- Eight bytes of an IPv4 datagram, from its offset 1480 on. -/
def laterFragmentV4 : Bytes :=
  [0x45, 0, 0, 28, 0, 1, 0, 185, 64, 17, 0, 0, 10, 0, 0, 1, 10, 0, 0, 2] ++
    [0x80, 0, 0, 7, 0, 0, 0, 1]

/-- Eight bytes of an IPv6 datagram, from its offset 1448 on. -/
def laterFragmentV6 : Bytes :=
  [0x60, 0, 0, 0, 0, 16, 44, 64] ++
    [0x20, 0x01, 0x0d, 0xb8, 0, 0, 0, 0, 0, 0, 0, 0, 0, 0, 0, 1] ++
    [0x20, 0x01, 0x0d, 0xb8, 0, 0, 0, 0, 0, 0, 0, 0, 0, 0, 0, 2] ++
    [17, 0, 0x05, 0xA8, 0, 0, 0, 1] ++ [0x80, 0, 0, 7, 0, 0, 0, 1]

theorem laterFragment_decapsulated :
    (HoldsLaterFragment dltRaw laterFragmentV4 ∧
      decapsulateUdp sampleAddresses dltRaw laterFragmentV4 ≠ .ok none) ∧
    HoldsLaterFragment dltRaw laterFragmentV6 ∧
      decapsulateUdp sampleAddresses dltRaw laterFragmentV6 ≠ .ok none := by
  refine ⟨⟨⟨ethertypeIpv4, 0, by decide, .inl ⟨rfl, by decide, by decide⟩⟩, by decide +kernel⟩,
    ⟨ethertypeIpv6, 0, by decide, .inr ⟨rfl, by decide, ?_⟩⟩, by decide +kernel⟩
  exact ⟨[(ipv6Fragment, 40)], protoUdp, 48, 40, .cons (by decide) (by decide) (.nil _ _),
    by decide, by decide, by decide⟩

end Rtpkit

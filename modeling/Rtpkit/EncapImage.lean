import Rtpkit.Encap

namespace Rtpkit

open Outcome Chunk

def IsEncapsulationError (e : Error) : Prop := ∃ detail, e = .encapsulationError detail

def maxUdpPayload (ip : IpAddress) : Nat :=
  if ip.version = 4 then maxUdpPayloadV4 else maxUdpPayloadV6

/-- The arguments that a frame is built from, whatever the link layer. -/
structure Encapsulable (src dst : IpAddress) (srcPort dstPort : Int) (payload : Bytes) : Prop where
  version : src.version = dst.version
  srcPort : 0 ≤ srcPort ∧ srcPort ≤ 0xFFFF
  dstPort : 0 ≤ dstPort ∧ dstPort ≤ 0xFFFF
  payload : payload.length ≤ maxUdpPayload src

def SupportedLink (linkType : Int) : Prop :=
  linkType = dltEn10mb ∨ linkType = dltLinuxSll ∨ linkType = dltRaw

instance (linkType : Int) : Decidable (SupportedLink linkType) :=
  inferInstanceAs (Decidable (_ ∨ _))

/-- What a checksum takes in besides the segment: the addresses, the number of UDP and the length. -/
def pseudoHeader (src dst : IpAddress) (length : Nat) : Bytes :=
  src.packed ++ (dst.packed ++
    if src.version = 4 then Fmt.wire .B 0 ++ (Fmt.wire .B 17 ++ Fmt.wire .H length)
    else Fmt.wire .I length ++ (zeros 3 ++ Fmt.wire .B 17))

/-- A UDP header up to its checksum. -/
def udpFields (srcPort dstPort : Int) (length : Nat) : Bytes :=
  Fmt.wire .H srcPort ++ (Fmt.wire .H dstPort ++ Fmt.wire .H length)

/-- The checksum that is sent for a segment. -/
def udpChecksumOf (pseudo fields payload : Bytes) : Nat :=
  if checksum16 (pseudo ++ (fields ++ (Fmt.wire .H 0 ++ payload))) ≠ 0 then
    checksum16 (pseudo ++ (fields ++ (Fmt.wire .H 0 ++ payload)))
  else 0xFFFF

def udpWire (src dst : IpAddress) (srcPort dstPort : Int) (payload : Bytes) : Bytes :=
  let fields := udpFields srcPort dstPort (8 + payload.length)
  let checksum := udpChecksumOf (pseudoHeader src dst (8 + payload.length)) fields payload
  fields ++ (Fmt.wire .H checksum ++ payload)

/-- An IPv4 header up to its checksum. -/
def ipv4Fields (totalLength : Nat) : Bytes :=
  Fmt.wire .B 0x45 ++ (Fmt.wire .B 0 ++ (Fmt.wire .H totalLength ++ (Fmt.wire .H 0 ++
    (Fmt.wire .H 0 ++ (Fmt.wire .B 64 ++ Fmt.wire .B protoUdp)))))

def ipv4Head (src dst : IpAddress) (totalLength : Nat) : Bytes :=
  let fields := ipv4Fields totalLength
  let checksum := checksum16 (fields ++ (Fmt.wire .H 0 ++ (src.packed ++ dst.packed)))
  fields ++ (Fmt.wire .H checksum ++ (src.packed ++ dst.packed))

def ipv6Head (src dst : IpAddress) (payloadLength : Nat) : Bytes :=
  Fmt.wire .I (6 <<< 28 : Nat) ++ (Fmt.wire .H payloadLength ++ (Fmt.wire .B protoUdp ++
    (Fmt.wire .B 64 ++ (src.packed ++ dst.packed))))

/-- The IP header in front of a segment. -/
def ipHead (src dst : IpAddress) (length : Nat) : Bytes :=
  if src.version = 4 then ipv4Head src dst (20 + length) else ipv6Head src dst length

def ipWire (src dst : IpAddress) (segment : Bytes) : Bytes :=
  ipHead src dst segment.length ++ segment

def ethertypeOf (ip : IpAddress) : Nat := if ip.version = 4 then ethertypeIpv4 else ethertypeIpv6

def linkHead (linkType : Int) (ethertype : Nat) : Bytes :=
  if linkType = dltEn10mb then dummyDstMac ++ (dummySrcMac ++ Fmt.wire .H ethertype)
  else if linkType = dltLinuxSll then
    Fmt.wire .H 0 ++ (Fmt.wire .H 1 ++ (Fmt.wire .H 0 ++ (zeros 8 ++ Fmt.wire .H ethertype)))
  else []

/-- The frame that `encapsulate_udp` builds. -/
def frameOf (linkType : Int) (src dst : IpAddress) (srcPort dstPort : Int) (payload : Bytes) :
    Bytes :=
  linkHead linkType (ethertypeOf src) ++ ipWire src dst (udpWire src dst srcPort dstPort payload)

theorem ethertypeOf_le (ip : IpAddress) : ethertypeOf ip ≤ 0xFFFF := by
  rw [ethertypeOf]
  split
  next => decide
  next => decide

@[simp] theorem length_udpFields (srcPort dstPort : Int) (length : Nat) :
    (udpFields srcPort dstPort length).length = 6 := by
  simp [udpFields]

@[simp] theorem length_ipv4Fields (totalLength : Nat) : (ipv4Fields totalLength).length = 10 := by
  simp [ipv4Fields]

@[simp] theorem length_udpWire (src dst : IpAddress) (srcPort dstPort : Int) (payload : Bytes) :
    (udpWire src dst srcPort dstPort payload).length = 8 + payload.length := by
  simp only [udpWire, List.length_append, length_udpFields, Fmt.length_wire, Fmt.size_H]
  omega

theorem length_packed (ip : IpAddress) :
    ip.packed.length = if ip.version = 4 then 4 else 16 := by
  cases ip with
  | v4 packed => exact packed.2
  | v6 packed => exact packed.2

theorem length_ipHead {src dst : IpAddress} (h : src.version = dst.version) (length : Nat) :
    (ipHead src dst length).length = if src.version = 4 then 20 else 40 := by
  have hsrc := length_packed src
  have hdst := length_packed dst
  rw [← h] at hdst
  rw [ipHead]
  by_cases hv : src.version = 4
  · rw [if_pos hv] at hsrc hdst
    rw [if_pos hv, if_pos hv]
    simp only [ipv4Head, List.length_append, length_ipv4Fields, Fmt.length_wire, Fmt.size_H, hsrc,
      hdst]
  · rw [if_neg hv] at hsrc hdst
    rw [if_neg hv, if_neg hv]
    simp only [ipv6Head, List.length_append, Fmt.length_wire, Fmt.size_I, Fmt.size_H, Fmt.size_B,
      hsrc, hdst]

theorem length_linkHead_le (linkType : Int) (ethertype : Nat) :
    (linkHead linkType ethertype).length ≤ 16 := by
  rw [linkHead]
  split
  next => simp [dummyDstMac, dummySrcMac]
  next =>
    split
    next => simp [zeros]
    next => exact Nat.zero_le _

theorem checksum16_fits (data : Bytes) : Fmt.Fits .H (checksum16 data : Nat) := by
  rw [checksum16, Fmt.fits_H]
  omega

theorem udpChecksumOf_fits (pseudo fields payload : Bytes) :
    Fmt.Fits .H (udpChecksumOf pseudo fields payload : Nat) := by
  rw [udpChecksumOf]
  split
  next => exact checksum16_fits _
  next => decide

section Addresses

variable {lib : IpAddressModule} {address : String} {ip : IpAddress}

theorem ipv4Packed_of_ipAddress (h : lib.ipAddress address = some ip) (hv : ip.version = 4) :
    lib.ipv4Packed address = .ok ip.packed := by
  rw [IpAddressModule.ipAddress] at h
  rw [IpAddressModule.ipv4Packed]
  cases hparse : lib.ipv4OfText address with
  | some packed =>
    rw [hparse] at h
    cases h
    rfl
  | none =>
    rw [hparse] at h
    obtain ⟨packed, -, rfl⟩ := Option.map_eq_some_iff.mp h
    cases hv

theorem ipv6Packed_of_ipAddress (h : lib.ipAddress address = some ip) (hv : ip.version ≠ 4) :
    lib.ipv6Packed address = .ok ip.packed := by
  rw [IpAddressModule.ipAddress] at h
  rw [IpAddressModule.ipv6Packed]
  cases hparse : lib.ipv4OfText address with
  | some packed =>
    rw [hparse] at h
    cases h
    exact absurd rfl hv
  | none =>
    rw [hparse] at h
    obtain ⟨packed, hpacked, rfl⟩ := Option.map_eq_some_iff.mp h
    rw [hpacked]
    rfl

end Addresses

section Build

variable {lib : IpAddressModule} {srcIp dstIp : String} {src dst : IpAddress}
  (hsrc : lib.ipAddress srcIp = some src) (hdst : lib.ipAddress dstIp = some dst)
  (hversion : src.version = dst.version)

include hsrc hdst hversion

theorem buildPseudo_eq {length : Nat} (hlen : length ≤ 0xFFFF) :
    buildPseudo lib srcIp dstIp length src.version = .ok (pseudoHeader src dst length) := by
  rw [buildPseudo, pseudoHeader]
  by_cases hv : src.version = 4
  · have hpack : structPack [(.B, 0), (.B, protoUdp), (.H, length)] =
        .ok (Fmt.wire .B 0 ++ (Fmt.wire .B protoUdp ++ Fmt.wire .H length)) :=
      structPack_eq_ok.mpr ⟨by simp [Fmt.fits_B, Fmt.fits_H, protoUdp]; omega, by simp⟩
    rw [if_pos hv, if_pos hv, ipv4Packed_of_ipAddress hsrc hv,
      ipv4Packed_of_ipAddress hdst (hversion ▸ hv), hpack]
    rfl
  · have hlength : structPack [(.I, (length : Int))] = .ok (Fmt.wire .I length) :=
      structPack_eq_ok.mpr ⟨by simp [Fmt.fits_I]; omega, by simp⟩
    have hproto : structPack [(.B, (protoUdp : Int))] = .ok (Fmt.wire .B protoUdp) :=
      structPack_eq_ok.mpr ⟨by simp [Fmt.fits_B, protoUdp], by simp⟩
    rw [if_neg hv, if_neg hv, ipv6Packed_of_ipAddress hsrc hv,
      ipv6Packed_of_ipAddress hdst (hversion ▸ hv), hlength, hproto]
    rfl

theorem buildUdp_eq {srcPort dstPort : Int} {payload : Bytes}
    (hsrcPort : 0 ≤ srcPort ∧ srcPort ≤ 0xFFFF) (hdstPort : 0 ≤ dstPort ∧ dstPort ≤ 0xFFFF)
    (hlen : payload.length ≤ 0xFFFF - 8) :
    buildUdp lib srcIp dstIp srcPort dstPort payload src.version =
      .ok (udpWire src dst srcPort dstPort payload) := by
  have hpack : ∀ checksum : Int, Fmt.Fits .H checksum →
      structPack [(.H, srcPort), (.H, dstPort), (.H, (8 + payload.length : Nat)), (.H, checksum)] =
        .ok (udpFields srcPort dstPort (8 + payload.length) ++ Fmt.wire .H checksum) := by
    intro checksum hchecksum
    refine structPack_eq_ok.mpr ⟨?_, by simp [udpFields]⟩
    simp only [List.forall_mem_cons]
    exact ⟨Fmt.fits_H.mpr hsrcPort, Fmt.fits_H.mpr hdstPort, Fmt.fits_H.mpr (by omega), hchecksum,
      by simp⟩
  have hblank : (udpFields srcPort dstPort (8 + payload.length) ++ Fmt.wire .H 0 ++ payload).length =
      8 + payload.length := by
    simp only [List.length_append, length_udpFields, Fmt.length_wire, Fmt.size_H]
  have hchecksum : udpChecksum lib srcIp dstIp
      (udpFields srcPort dstPort (8 + payload.length) ++ Fmt.wire .H 0 ++ payload) src.version =
      .ok (udpChecksumOf (pseudoHeader src dst (8 + payload.length))
        (udpFields srcPort dstPort (8 + payload.length)) payload) := by
    rw [udpChecksum, hblank, buildPseudo_eq hsrc hdst hversion (by omega), bind_ok,
      List.append_assoc]
    rfl
  rw [buildUdp, hpack 0 (by decide), bind_ok, hchecksum, bind_ok,
    hpack _ (udpChecksumOf_fits _ _ _), bind_ok, List.append_assoc]
  rfl

theorem buildIpv4_eq {segment : Bytes} (hv : src.version = 4)
    (hlen : 20 + segment.length ≤ 0xFFFF) :
    buildIpv4 lib srcIp dstIp segment = .ok (ipv4Head src dst (20 + segment.length) ++ segment) := by
  have hpack : structPack [(.B, 0x45), (.B, 0), (.H, (20 + segment.length : Nat)), (.H, 0),
      (.H, 0), (.B, 64), (.B, protoUdp), (.H, 0)] =
      .ok (ipv4Fields (20 + segment.length) ++ Fmt.wire .H 0) := by
    refine structPack_eq_ok.mpr ⟨?_, by simp [ipv4Fields]⟩
    simp only [List.forall_mem_cons]
    exact ⟨by decide, by decide, Fmt.fits_H.mpr (by omega), by decide, by decide, by decide,
      by decide, by decide, by simp⟩
  rw [buildIpv4, ipv4Packed_of_ipAddress hsrc hv, ipv4Packed_of_ipAddress hdst (hversion ▸ hv),
    bind_ok, bind_ok, hpack, bind_ok, ipv4Head, List.append_assoc (ipv4Fields _)]
  generalize hheader : ipv4Fields (20 + segment.length) ++
    (Fmt.wire .H 0 ++ (src.packed ++ dst.packed)) = header
  have hfront : slice header 0 10 = ipv4Fields (20 + segment.length) := by
    rw [← hheader, slice_zero, List.take_left' (length_ipv4Fields _)]
  have hback : slice header 12 header.length = src.packed ++ dst.packed := by
    rw [slice, List.take_length, ← hheader, ← List.append_assoc, List.drop_left' (by simp)]
  have hchecksum : structPack [(.H, (checksum16 header : Int))] =
      .ok (Fmt.wire .H (checksum16 header)) :=
    structPack_eq_ok.mpr ⟨by simpa using checksum16_fits header, by simp⟩
  dsimp only
  rw [hchecksum, bind_ok, hfront, hback, pure_eq_ok]
  simp

theorem buildIpv6_eq {segment : Bytes} (hv : src.version ≠ 4) (hlen : segment.length ≤ 0xFFFF) :
    buildIpv6 lib srcIp dstIp segment = .ok (ipv6Head src dst segment.length ++ segment) := by
  have hpack : structPack [(.I, (6 <<< 28 : Nat)), (.H, segment.length), (.B, protoUdp), (.B, 64)] =
      .ok (Fmt.wire .I (6 <<< 28 : Nat) ++ (Fmt.wire .H segment.length ++
        (Fmt.wire .B protoUdp ++ Fmt.wire .B 64))) := by
    refine structPack_eq_ok.mpr ⟨?_, by simp⟩
    simp only [List.forall_mem_cons]
    exact ⟨by decide, Fmt.fits_H.mpr (by omega), by decide, by decide, by simp⟩
  rw [buildIpv6, hpack, bind_ok, ipv6Packed_of_ipAddress hsrc hv,
    ipv6Packed_of_ipAddress hdst (hversion ▸ hv), bind_ok, bind_ok, pure_eq_ok]
  simp [ipv6Head]

theorem buildIp_eq {segment : Bytes}
    (hlen : (if src.version = 4 then 20 else 0) + segment.length ≤ 0xFFFF) :
    buildIp lib srcIp dstIp segment src.version = .ok (ipWire src dst segment) := by
  rw [buildIp, ipWire, ipHead]
  by_cases hv : src.version = 4
  · rw [if_pos hv] at hlen
    rw [if_pos hv, if_pos hv, buildIpv4_eq hsrc hdst hversion hv hlen]
  · rw [if_neg hv, Nat.zero_add] at hlen
    rw [if_neg hv, if_neg hv, buildIpv6_eq hsrc hdst hversion hv hlen]

end Build

theorem wrapLink_eq {linkType : Int} {ethertype : Nat} (hlink : SupportedLink linkType)
    (htype : ethertype ≤ 0xFFFF) (ipPacket : Bytes) :
    wrapLink linkType ethertype ipPacket = .ok (linkHead linkType ethertype ++ ipPacket) := by
  have hpack : structPack [(.H, (ethertype : Int))] = .ok (Fmt.wire .H ethertype) :=
    structPack_eq_ok.mpr ⟨by simp [Fmt.fits_H]; omega, by simp⟩
  rw [wrapLink, linkHead]
  by_cases hether : linkType = dltEn10mb
  · rw [if_pos hether, if_pos hether, hpack, bind_ok, pure_eq_ok]
    simp
  rw [if_neg hether, if_neg hether]
  by_cases hsll : linkType = dltLinuxSll
  · have hhead : structPack [(.H, 0), (.H, 1), (.H, 0)] =
        .ok (Fmt.wire .H 0 ++ (Fmt.wire .H 1 ++ Fmt.wire .H 0)) := by
      decide
    rw [if_pos hsll, if_pos hsll, hhead, hpack, bind_ok, bind_ok, pure_eq_ok]
    simp
  · have hraw : linkType = dltRaw := hlink.resolve_left hether |>.resolve_left hsll
    rw [if_neg hsll, if_neg hsll, if_pos hraw]
    rfl

theorem wrapLink_of_unsupported {linkType : Int} {ethertype : Nat}
    (hlink : ¬SupportedLink linkType) (ipPacket : Bytes) :
    wrapLink linkType ethertype ipPacket = .error (.encapsulationError
      s!"unsupported link_type {linkType} (supported: EN10MB=1, LINUX_SLL=113, RAW=101)") := by
  rw [SupportedLink, not_or, not_or] at hlink
  rw [wrapLink, if_neg hlink.1, if_neg hlink.2.1, if_neg hlink.2.2]

theorem wrapLink_failsOnly {linkType : Int} {ethertype : Nat} (htype : ethertype ≤ 0xFFFF)
    (ipPacket : Bytes) : FailsOnly IsEncapsulationError (wrapLink linkType ethertype ipPacket) := by
  by_cases hlink : SupportedLink linkType
  · rw [wrapLink_eq hlink htype]
    exact failsOnly_ok _
  · rw [wrapLink_of_unsupported hlink]
    exact failsOnly_error ⟨_, rfl⟩

section Encapsulate

variable {lib : IpAddressModule} {linkType : Int} {srcIp dstIp : String} {src dst : IpAddress}
  {srcPort dstPort : Int} {payload frame : Bytes}

theorem parseIp_eq_ok {address : String} {ip : IpAddress} :
    parseIp lib address = .ok ip ↔ lib.ipAddress address = some ip := by
  rw [parseIp]
  cases lib.ipAddress address with
  | none => simp
  | some found => simp

theorem parseIp_failsOnly (address : String) :
    FailsOnly IsEncapsulationError (parseIp lib address) := by
  rw [parseIp]
  cases lib.ipAddress address with
  | none => exact failsOnly_error ⟨_, rfl⟩
  | some ip => exact failsOnly_ok ip

theorem Encapsulable.length_le (h : Encapsulable src dst srcPort dstPort payload) :
    (if src.version = 4 then 20 else 0) + (8 + payload.length) ≤ 0xFFFF := by
  have hmax := h.payload
  rw [maxUdpPayload, maxUdpPayloadV4, maxUdpPayloadV6] at hmax
  split
  next hv =>
    rw [if_pos hv] at hmax
    omega
  next hv =>
    rw [if_neg hv] at hmax
    omega

/-- After the checks only the link type can be wrong. -/
theorem buildLayers_eq (hsrc : lib.ipAddress srcIp = some src) (hdst : lib.ipAddress dstIp = some dst)
    (h : Encapsulable src dst srcPort dstPort payload) :
    encapsulateUdp lib linkType srcIp dstIp srcPort dstPort payload =
      wrapLink linkType (ethertypeOf src)
        (ipWire src dst (udpWire src dst srcPort dstPort payload)) := by
  have hlen := h.length_le
  have hmax : payload.length ≤ if src.version = 4 then maxUdpPayloadV4 else maxUdpPayloadV6 :=
    h.payload
  rw [encapsulateUdp, parseIp_eq_ok.mpr hsrc, bind_ok, parseIp_eq_ok.mpr hdst, bind_ok,
    require_pos h.version, bind_ok, validatePort, require_pos h.srcPort, bind_ok, validatePort,
    require_pos h.dstPort, bind_ok]
  dsimp only
  rw [require_pos hmax, bind_ok,
    buildUdp_eq hsrc hdst h.version h.srcPort h.dstPort (by omega), bind_ok,
    buildIp_eq hsrc hdst h.version (by rwa [length_udpWire]), bind_ok]
  rfl

/-- `encapsulate_udp` returns exactly for the arguments in range, and then the frame. -/
theorem encapsulateUdp_eq_ok_iff :
    encapsulateUdp lib linkType srcIp dstIp srcPort dstPort payload = .ok frame ↔
      ∃ src dst, lib.ipAddress srcIp = some src ∧ lib.ipAddress dstIp = some dst ∧
        Encapsulable src dst srcPort dstPort payload ∧ SupportedLink linkType ∧
        frame = frameOf linkType src dst srcPort dstPort payload := by
  constructor
  · intro h
    have hall := h
    rw [encapsulateUdp] at h
    obtain ⟨src, hsrc, h⟩ := bind_eq_ok.mp h
    obtain ⟨dst, hdst, h⟩ := bind_eq_ok.mp h
    obtain ⟨_, hversion, h⟩ := bind_eq_ok.mp h
    obtain ⟨_, hsrcPort, h⟩ := bind_eq_ok.mp h
    obtain ⟨_, hdstPort, h⟩ := bind_eq_ok.mp h
    obtain ⟨_, hpayload, h⟩ := bind_eq_ok.mp h
    have hsrc := parseIp_eq_ok.mp hsrc
    have hdst := parseIp_eq_ok.mp hdst
    have hvalid : Encapsulable src dst srcPort dstPort payload :=
      ⟨require_eq_ok.mp hversion, require_eq_ok.mp hsrcPort, require_eq_ok.mp hdstPort,
        require_eq_ok.mp hpayload⟩
    rw [buildLayers_eq hsrc hdst hvalid] at hall
    by_cases hlink : SupportedLink linkType
    · rw [wrapLink_eq hlink (ethertypeOf_le src)] at hall
      exact ⟨src, dst, hsrc, hdst, hvalid, hlink, (Except.ok.inj hall).symm⟩
    · rw [wrapLink_of_unsupported hlink] at hall
      cases hall
  · rintro ⟨src, dst, hsrc, hdst, hvalid, hlink, rfl⟩
    rw [buildLayers_eq hsrc hdst hvalid, wrapLink_eq hlink (ethertypeOf_le src)]
    rfl

theorem encapsulateUdp_failsOnly :
    FailsOnly IsEncapsulationError
      (encapsulateUdp lib linkType srcIp dstIp srcPort dstPort payload) := by
  refine failsOnly_bind (parseIp_failsOnly srcIp) fun src hsrc => ?_
  refine failsOnly_bind (parseIp_failsOnly dstIp) fun dst hdst => ?_
  refine failsOnly_bind (failsOnly_require ⟨_, rfl⟩) fun _ hversion => ?_
  refine failsOnly_bind (failsOnly_require ⟨_, rfl⟩) fun _ hsrcPort => ?_
  refine failsOnly_bind (failsOnly_require ⟨_, rfl⟩) fun _ hdstPort => ?_
  refine failsOnly_bind (failsOnly_require ⟨_, rfl⟩) fun _ hpayload => ?_
  have hsrc := parseIp_eq_ok.mp hsrc
  have hdst := parseIp_eq_ok.mp hdst
  have hvalid : Encapsulable src dst srcPort dstPort payload :=
    ⟨require_eq_ok.mp hversion, require_eq_ok.mp hsrcPort, require_eq_ok.mp hdstPort,
      require_eq_ok.mp hpayload⟩
  have hlen := hvalid.length_le
  rw [buildUdp_eq hsrc hdst hvalid.version hvalid.srcPort hvalid.dstPort (by omega), bind_ok,
    buildIp_eq hsrc hdst hvalid.version (by rwa [length_udpWire]), bind_ok]
  exact wrapLink_failsOnly (ethertypeOf_le src) _

end Encapsulate

end Rtpkit

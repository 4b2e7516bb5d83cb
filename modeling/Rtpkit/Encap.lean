import Rtpkit.Decap
import Rtpkit.RtcpBuilder

namespace Rtpkit

open Outcome Chunk

def dummyDstMac : Bytes := [0, 0, 0, 0, 0, 1]

def dummySrcMac : Bytes := [0, 0, 0, 0, 0, 2]

def maxUdpPayloadV4 : Nat := 0xFFFF - 20 - 8

def maxUdpPayloadV6 : Nat := 0xFFFF - 8

def validatePort (port : Int) (name : String) : Except Error Unit :=
  require (0 ≤ port ∧ port ≤ 0xFFFF)
    (.encapsulationError s!"{name} must fit in 16 bits, got {port}")

/-- The numbers that `_checksum16` sums up, of data of even length. -/
def checksumWords : Bytes → List Nat
  | high :: low :: rest => ((high.toNat <<< 8) ||| low.toNat) :: checksumWords rest
  | _ => []

/-- The `while` loop of `_checksum16`. -/
def foldCarries (total : Nat) : Nat :=
  if _h : total >>> 16 ≠ 0 then foldCarries ((total &&& 0xFFFF) + (total >>> 16)) else total
termination_by total
decreasing_by
  rw [Nat.shiftRight_eq_div_pow] at _h ⊢
  have hlow : total &&& 0xFFFF = total % 2 ^ 16 := Nat.and_two_pow_sub_one_eq_mod total 16
  omega

def checksum16 (data : Bytes) : Nat :=
  let data := if data.length % 2 ≠ 0 then data ++ [0] else data
  let total := foldCarries (checksumWords data).sum
  -- the complement of the integer, cut down to 16 bits
  ((-(total : Int) - 1) % 0x10000).toNat

section Addresses

variable (lib : IpAddressModule)

def parseIp (address : String) : Except Error IpAddress :=
  match lib.ipAddress address with
  | some ip => .ok ip
  | none => .error (.encapsulationError
    s!"invalid IP address {lib.repr address}: {lib.repr address} does not appear to be an IPv4 or IPv6 address")

/-- The pseudo-header that the checksum of a segment takes in. -/
def buildPseudo (srcIp dstIp : String) (length ipVersion : Nat) : Except Error Bytes :=
  if ipVersion = 4 then do
    let src ← lib.ipv4Packed srcIp
    let dst ← lib.ipv4Packed dstIp
    let trailer ← structPack [(.B, 0), (.B, protoUdp), (.H, length)]
    pure (src ++ (dst ++ trailer))
  else do
    let src ← lib.ipv6Packed srcIp
    let dst ← lib.ipv6Packed dstIp
    let lengthField ← structPack [(.I, length)]
    let proto ← structPack [(.B, protoUdp)]
    pure (src ++ (dst ++ (lengthField ++ (zeros 3 ++ proto))))

def udpChecksum (srcIp dstIp : String) (udpSegment : Bytes) (ipVersion : Nat) :
    Except Error Nat := do
  let pseudo ← buildPseudo lib srcIp dstIp udpSegment.length ipVersion
  let checksum := checksum16 (pseudo ++ udpSegment)
  pure (if checksum ≠ 0 then checksum else 0xFFFF)

def buildUdp (srcIp dstIp : String) (srcPort dstPort : Int) (payload : Bytes) (ipVersion : Nat) :
    Except Error Bytes := do
  let length := 8 + payload.length
  let blank ← structPack [(.H, srcPort), (.H, dstPort), (.H, length), (.H, 0)]
  let checksum ← udpChecksum lib srcIp dstIp (blank ++ payload) ipVersion
  let header ← structPack [(.H, srcPort), (.H, dstPort), (.H, length), (.H, checksum)]
  pure (header ++ payload)

def buildIpv4 (srcIp dstIp : String) (udpSegment : Bytes) : Except Error Bytes := do
  let totalLength := 20 + udpSegment.length
  let src ← lib.ipv4Packed srcIp
  let dst ← lib.ipv4Packed dstIp
  let fields ← structPack [(.B, 0x45), (.B, 0), (.H, totalLength), (.H, 0), (.H, 0), (.B, 64),
    (.B, protoUdp), (.H, 0)]
  let header := fields ++ (src ++ dst)
  let checksum ← structPack [(.H, checksum16 header)]
  pure (slice header 0 10 ++ (checksum ++ (slice header 12 header.length ++ udpSegment)))

def buildIpv6 (srcIp dstIp : String) (udpSegment : Bytes) : Except Error Bytes := do
  let fields ← structPack [(.I, (6 <<< 28 : Nat)), (.H, udpSegment.length), (.B, protoUdp), (.B, 64)]
  let src ← lib.ipv6Packed srcIp
  let dst ← lib.ipv6Packed dstIp
  pure (fields ++ (src ++ (dst ++ udpSegment)))

def buildIp (srcIp dstIp : String) (udpSegment : Bytes) (ipVersion : Nat) : Except Error Bytes :=
  if ipVersion = 4 then buildIpv4 lib srcIp dstIp udpSegment
  else buildIpv6 lib srcIp dstIp udpSegment

/-- The link layer that `encapsulate_udp` puts in front of the packet in the end. -/
def wrapLink (linkType : Int) (ethertype : Nat) (ipPacket : Bytes) : Except Error Bytes :=
  if linkType = dltEn10mb then do
    let typeField ← structPack [(.H, ethertype)]
    pure (dummyDstMac ++ (dummySrcMac ++ (typeField ++ ipPacket)))
  else if linkType = dltLinuxSll then do
    let head ← structPack [(.H, 0), (.H, 1), (.H, 0)]
    let typeField ← structPack [(.H, ethertype)]
    pure (head ++ (zeros 8 ++ (typeField ++ ipPacket)))
  else if linkType = dltRaw then pure ipPacket
  else .error (.encapsulationError
    s!"unsupported link_type {linkType} (supported: EN10MB=1, LINUX_SLL=113, RAW=101)")

def encapsulateUdp (linkType : Int) (srcIp dstIp : String) (srcPort dstPort : Int)
    (payload : Bytes) : Except Error Bytes := do
  let srcAddr ← parseIp lib srcIp
  let dstAddr ← parseIp lib dstIp
  require (srcAddr.version = dstAddr.version) (.encapsulationError
    s!"src_ip and dst_ip must be the same IP version, got v{srcAddr.version} and v{dstAddr.version}")
  validatePort srcPort "src_port"
  validatePort dstPort "dst_port"
  let ipVersion := srcAddr.version
  let maxPayload := if ipVersion = 4 then maxUdpPayloadV4 else maxUdpPayloadV6
  require (payload.length ≤ maxPayload) (.encapsulationError
    s!"payload of {payload.length} bytes exceeds the {maxPayload}-byte UDP/IPv{ipVersion} limit")
  let udpSegment ← buildUdp lib srcIp dstIp srcPort dstPort payload ipVersion
  let ipPacket ← buildIp lib srcIp dstIp udpSegment ipVersion
  let ethertype := if ipVersion = 4 then ethertypeIpv4 else ethertypeIpv6
  wrapLink linkType ethertype ipPacket

end Addresses

end Rtpkit

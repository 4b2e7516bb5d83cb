import Rtpkit.DecapLayout

namespace Rtpkit

open Chunk

/-- The link layer of a frame, with what no reader of the frame looks at left open. -/
inductive Link
  | ethernet (macs : FixedBytes 12) (tags : List (FixedBytes 2))
  | sll (head : FixedBytes 14)
  | raw

namespace Link

def linkType : Link → Int
  | ethernet _ _ => dltEn10mb
  | sll _ => dltLinuxSll
  | raw => dltRaw

def tagsWire (tags : List (FixedBytes 2)) : Bytes :=
  (tags.map fun control => Fmt.wire .H ethertypeVlan ++ control.1).flatten

def wire (ethertype : Nat) : Link → Bytes
  | ethernet macs tags => macs.1 ++ (tagsWire tags ++ Fmt.wire .H ethertype)
  | sll head => head.1 ++ Fmt.wire .H ethertype
  | raw => []

def tagCount : Link → Nat
  | ethernet _ tags => tags.length
  | sll _ => 0
  | raw => 0

end Link

/-- An IPv4 header for UDP that belongs to no later fragment. -/
structure Ipv4Header where
  tos : FixedBytes 1
  identification : FixedBytes 2
  flags : Nat
  ttl : FixedBytes 1
  checksum : FixedBytes 2
  source : FixedBytes 4
  destination : FixedBytes 4
  options : Bytes
  flags_lt : flags < 8
  options_aligned : options.length % 4 = 0
  options_le : options.length ≤ 40

def Ipv4Header.wire (header : Ipv4Header) (udpLength : Nat) : Bytes :=
  Fmt.wire .B (0x40 + (5 + header.options.length / 4) : Nat) ++ (header.tos.1 ++
    (Fmt.wire .H (20 + header.options.length + udpLength : Nat) ++ (header.identification.1 ++
      (Fmt.wire .H (header.flags * 2 ^ 13 : Nat) ++ (header.ttl.1 ++ (Fmt.wire .B protoUdp ++
        (header.checksum.1 ++ (header.source.1 ++ (header.destination.1 ++ header.options)))))))))

inductive ExtKind
  | hopbyhop
  | routing
  | destopts
  deriving DecidableEq, Repr

/-- An IPv6 extension header that says its own length, or a Fragment header with offset 0. -/
inductive ExtHeader
  | sized (kind : ExtKind) (units : Nat) (contents : FixedBytes (6 + units * 8))
      (units_lt : units < 256)
  | fragment (reserved : FixedBytes 1) (flags : Nat) (identification : FixedBytes 4)
      (flags_lt : flags < 8)

namespace ExtHeader

def number : ExtHeader → Nat
  | sized .hopbyhop _ _ _ => ipv6Hopbyhop
  | sized .routing _ _ _ => ipv6Routing
  | sized .destopts _ _ _ => ipv6Destopts
  | fragment _ _ _ _ => ipv6Fragment

def wire (following : Nat) : ExtHeader → Bytes
  | sized _ units contents _ => Fmt.wire .B following ++ (Fmt.wire .B units ++ contents.1)
  | fragment reserved flags identification _ =>
    Fmt.wire .B following ++ (reserved.1 ++ (Fmt.wire .H flags ++ identification.1))

end ExtHeader

/-- The number that announces the headers of a chain, or the UDP header behind them. -/
def nextNumber : List ExtHeader → Nat
  | [] => protoUdp
  | header :: _ => header.number

def chainWire : List ExtHeader → Bytes
  | [] => []
  | header :: chain => header.wire (nextNumber chain) ++ chainWire chain

structure Ipv6Header where
  classAndFlow : Nat
  payloadLength : FixedBytes 2
  hopLimit : FixedBytes 1
  source : FixedBytes 16
  destination : FixedBytes 16
  chain : List ExtHeader
  classAndFlow_lt : classAndFlow < 2 ^ 28

theorem classAndFlow_zero_lt : 0 < 2 ^ 28 := by decide

def Ipv6Header.wire (header : Ipv6Header) : Bytes :=
  Fmt.wire .I (6 * 2 ^ 28 + header.classAndFlow : Nat) ++ (header.payloadLength.1 ++
    (Fmt.wire .B (nextNumber header.chain) ++ (header.hopLimit.1 ++
      (header.source.1 ++ (header.destination.1 ++ chainWire header.chain)))))

inductive IpHeader
  | v4 (header : Ipv4Header)
  | v6 (header : Ipv6Header)

namespace IpHeader

def wire (udpLength : Nat) : IpHeader → Bytes
  | v4 header => header.wire udpLength
  | v6 header => header.wire

def ethertype : IpHeader → Nat
  | v4 _ => ethertypeIpv4
  | v6 _ => ethertypeIpv6

def source : IpHeader → IpAddress
  | v4 header => .v4 header.source
  | v6 header => .v6 header.source

def destination : IpHeader → IpAddress
  | v4 header => .v4 header.destination
  | v6 header => .v6 header.destination

def extCount : IpHeader → Nat
  | v4 _ => 0
  | v6 header => header.chain.length

/-- The most that the length fields leave for the UDP segment. -/
def room : IpHeader → Nat
  | v4 header => 0xFFFF - (20 + header.options.length)
  | v6 _ => 0xFFFF

end IpHeader

/-- A UDP datagram in a frame, with anything behind it. -/
structure UdpFrame where
  link : Link
  ip : IpHeader
  srcPort : Nat
  dstPort : Nat
  checksum : FixedBytes 2
  payload : Bytes
  trailer : Bytes
  srcPort_le : srcPort ≤ 0xFFFF
  dstPort_le : dstPort ≤ 0xFFFF
  length_le : 8 + payload.length ≤ ip.room

namespace UdpFrame

def segment (frame : UdpFrame) : Bytes :=
  Fmt.wire .H frame.srcPort ++ (Fmt.wire .H frame.dstPort ++
    (Fmt.wire .H (8 + frame.payload.length : Nat) ++ (frame.checksum.1 ++ frame.payload)))

def wire (frame : UdpFrame) : Bytes :=
  frame.link.wire frame.ip.ethertype ++ (frame.ip.wire (8 + frame.payload.length) ++
    (frame.segment ++ frame.trailer))

end UdpFrame

end Rtpkit

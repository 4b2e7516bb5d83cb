import Rtpkit.IpAddress
import Rtpkit.MemoryView

namespace Rtpkit

open Outcome

def dltEn10mb : Int := 1

def dltRaw : Int := 101

def dltLinuxSll : Int := 113

def ethertypeIpv4 : Nat := 0x0800

def ethertypeIpv6 : Nat := 0x86DD

def ethertypeVlan : Nat := 0x8100

def maxVlanTags : Nat := 2

def protoUdp : Nat := 17

def ipv6Hopbyhop : Nat := 0

def ipv6Routing : Nat := 43

def ipv6Fragment : Nat := 44

def ipv6Destopts : Nat := 60

def ipv6ExtHeaders : List Nat := [ipv6Hopbyhop, ipv6Routing, ipv6Fragment, ipv6Destopts]

def maxIpv6ExtHeaders : Nat := 8

/-- A UDP datagram recovered from a frame; the payload is a view of it. -/
structure DecapsulatedUdp where
  srcIp : String
  dstIp : String
  srcPort : Nat
  dstPort : Nat
  payload : MemoryView UInt8
  deriving DecidableEq

def decapUdp (data : MemoryView UInt8) (srcIp dstIp : String) :
    Except Error (Option DecapsulatedUdp) :=
  if data.length < 8 then pure none
  else do
    let srcPort ← unpackFrom .H data.toList 0
    let dstPort ← unpackFrom .H data.toList 2
    let length ← unpackFrom .H data.toList 4
    let stop := if 8 ≤ length ∧ length ≤ data.length then length else data.length
    pure (some {
      srcIp := srcIp
      dstIp := dstIp
      srcPort := srcPort
      dstPort := dstPort
      payload := data.slice 8 stop })

/-- The length of an extension header; the Fragment header has no field for it. -/
def readExtLen (data : MemoryView UInt8) (nextHeader offset : Nat) : Except Error Nat :=
  if nextHeader = ipv6Fragment then pure 8
  else do
    let units ← getByte data.toList (offset + 1)
    pure ((units + 1) * 8)

/-- The loop over the extension headers: the next header and the offset behind the last one. -/
def walkExtHeaders (data : MemoryView UInt8) :
    Nat → Nat → Nat → Except Error (Option (Nat × Nat))
  | 0, nextHeader, offset => pure (some (nextHeader, offset))
  | hops + 1, nextHeader, offset =>
    if nextHeader ∉ ipv6ExtHeaders then pure (some (nextHeader, offset))
    else if data.length < offset + 2 then pure none
    else do
      let following ← getByte data.toList offset
      let extLen ← readExtLen data nextHeader offset
      if data.length < offset + extLen then pure none
      else walkExtHeaders data hops following (offset + extLen)

/-- The loop over the VLAN tags: the ethertype and the offset behind the last one. -/
def stripVlanTags (frame : MemoryView UInt8) :
    Nat → Nat → Nat → Except Error (Option (Nat × Nat))
  | 0, ethertype, offset => pure (some (ethertype, offset))
  | tags + 1, ethertype, offset =>
    if ethertype ≠ ethertypeVlan then pure (some (ethertype, offset))
    else if frame.length < offset + 4 then pure none
    else do
      let inner ← unpackFrom .H frame.toList (offset + 2)
      stripVlanTags frame tags inner (offset + 4)

def stripEthernet (frame : MemoryView UInt8) : Except Error (Option (Nat × MemoryView UInt8)) :=
  if frame.length < 14 then pure none
  else do
    let ethertype ← unpackFrom .H frame.toList 12
    let stripped ← stripVlanTags frame maxVlanTags ethertype 14
    pure (stripped.map fun (ethertype, offset) => (ethertype, frame.slice offset frame.length))

def stripSll (frame : MemoryView UInt8) : Except Error (Option (Nat × MemoryView UInt8)) :=
  if frame.length < 16 then pure none
  else do
    let ethertype ← unpackFrom .H frame.toList 14
    pure (some (ethertype, frame.slice 16 frame.length))

def stripRaw (frame : MemoryView UInt8) : Except Error (Option (Nat × MemoryView UInt8)) :=
  if frame.length < 1 then pure none
  else do
    let first ← getByte frame.toList 0
    let version := (first >>> 4) &&& 0x0F
    if version = 4 then pure (some (ethertypeIpv4, frame))
    else if version = 6 then pure (some (ethertypeIpv6, frame))
    else pure none

def stripLinkLayer (linkType : Int) (frame : MemoryView UInt8) :
    Except Error (Option (Nat × MemoryView UInt8)) :=
  if linkType = dltEn10mb then stripEthernet frame
  else if linkType = dltLinuxSll then stripSll frame
  else if linkType = dltRaw then stripRaw frame
  else pure none

section Addresses

variable (lib : IpAddressModule)

def decapIpv4 (data : MemoryView UInt8) : Except Error (Option DecapsulatedUdp) :=
  if data.length < 20 then pure none
  else do
    let first ← getByte data.toList 0
    let headerLen := (first &&& 0x0F) * 4
    if (first >>> 4) &&& 0x0F ≠ 4 then pure none
    else if headerLen < 20 ∨ data.length < headerLen then pure none
    else do
      let protocol ← getByte data.toList 9
      if protocol ≠ protoUdp then pure none
      else do
        let totalLength ← unpackFrom .H data.toList 2
        let stop :=
          if headerLen ≤ totalLength ∧ totalLength ≤ data.length then totalLength else data.length
        let srcIp ← lib.ipv4Str (data.slice 12 16).toList
        let dstIp ← lib.ipv4Str (data.slice 16 20).toList
        decapUdp (data.slice headerLen stop) srcIp dstIp

def decapIpv6 (data : MemoryView UInt8) : Except Error (Option DecapsulatedUdp) :=
  if data.length < 40 then pure none
  else do
    let first ← getByte data.toList 0
    if (first >>> 4) &&& 0x0F ≠ 6 then pure none
    else do
      let nextHeader ← getByte data.toList 6
      let srcIp ← lib.ipv6Str (data.slice 8 24).toList
      let dstIp ← lib.ipv6Str (data.slice 24 40).toList
      let walked ← walkExtHeaders data maxIpv6ExtHeaders nextHeader 40
      match walked with
      | none => pure none
      | some (nextHeader, offset) =>
        if nextHeader ≠ protoUdp then pure none
        else decapUdp (data.slice offset data.length) srcIp dstIp

def decapsulateUdp (linkType : Int) (frame : Bytes) : Except Error (Option DecapsulatedUdp) := do
  let stripped ← stripLinkLayer linkType (MemoryView.ofList frame)
  match stripped with
  | none => pure none
  | some (ethertype, ipPacket) =>
    if ethertype = ethertypeIpv4 then decapIpv4 lib ipPacket
    else if ethertype = ethertypeIpv6 then decapIpv6 lib ipPacket
    else pure none

end Addresses

end Rtpkit

import Rtpkit.ByteOrder
import Rtpkit.PcapModel
import Rtpkit.RoundHalfEven

namespace Rtpkit

open Outcome

def magicLeUs : Bytes := [0xd4, 0xc3, 0xb2, 0xa1]

/-- The link type of the file: the argument, or that of the first packet. -/
def chooseLinkType (packets : List PcapPacket) : Option Int → Except Error Int
  | some linkType => pure linkType
  | none =>
    match packets with
    | [] => .error (.pcapWriteError "link_type is required to write an empty pcap file")
    | pkt :: _ => pure pkt.linkType

/-- The loop of `write_pcap` over the link types, from packet `i` on. -/
def checkLinkTypes (linkType : Int) : Nat → List PcapPacket → Except Error Unit
  | _, [] => pure ()
  | i, pkt :: packets => do
    require (pkt.linkType = linkType) (.pcapWriteError
      s!"packet {i} has link_type {pkt.linkType}, expected {linkType} (classic pcap has one global link type per file — use write_pcapng for mixed link types)")
    checkLinkTypes linkType (i + 1) packets

def splitTimestamp (timestamp : ℚ) : Int × Int :=
  let tsSec := truncate timestamp
  let tsUsec := roundHalfEven ((timestamp - tsSec) * 1000000)
  if 1000000 ≤ tsUsec then (tsSec + 1, tsUsec - 1000000) else (tsSec, tsUsec)

def buildGlobalHeader (linkType : Int) : Except Error Bytes := do
  let version ← packIn .little [(.H, 2), (.H, 4)]
  let tail ← packIn .little [(.I, 0), (.I, 262144), (.I, linkType)]
  pure (magicLeUs ++ (version ++ (signedWire .little 4 0 ++ tail)))

def buildRecord (pkt : PcapPacket) : Except Error Bytes := do
  let (tsSec, tsUsec) := splitTimestamp pkt.timestamp
  let header ← packIn .little [(.I, tsSec), (.I, tsUsec), (.I, pkt.data.length),
    (.I, pkt.originalLength)]
  pure (header ++ pkt.data)

def writePcap (packets : List PcapPacket) (linkType : Option Int) : Except Error Bytes := do
  let linkType ← chooseLinkType packets linkType
  checkLinkTypes linkType 0 packets
  let header ← buildGlobalHeader linkType
  let records ← packets.mapM buildRecord
  pure (header ++ records.flatten)

end Rtpkit

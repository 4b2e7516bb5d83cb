import Rtpkit.ByteOrder
import Rtpkit.OrderedDict
import Rtpkit.PcapngReader
import Rtpkit.RoundHalfEven

namespace Rtpkit

open Outcome

def shbType : Nat := 0x0A0D0D0A

/-- One turn of the loop that numbers the link types by first appearance. -/
def internLinkType (interfaces : OrderedDict Int Nat) (pkt : PcapPacket) : OrderedDict Int Nat :=
  match interfaces.get? pkt.linkType with
  | none => interfaces.set pkt.linkType interfaces.entries.length
  | some _ => interfaces

def internLinkTypes (packets : List PcapPacket) : OrderedDict Int Nat :=
  packets.foldl internLinkType OrderedDict.empty

def wrapBlock (blockType : Nat) (body : Bytes) : Except Error Bytes := do
  let paddedBody := body ++ zeros (alignPad body.length)
  let totalLen := 8 + paddedBody.length + 4
  let header ← packIn .little [(.I, blockType), (.I, totalLen)]
  let trailer ← packIn .little [(.I, totalLen)]
  pure (header ++ (paddedBody ++ trailer))

def buildShb : Except Error Bytes := do
  let version ← packIn .little [(.H, 1), (.H, 0)]
  wrapBlock shbType (bomLittleEndian ++ (version ++ signedWire .little 8 (-1)))

def buildIdb (linkType : Int) : Except Error Bytes := do
  let body ← packIn .little [(.H, linkType), (.H, 0), (.I, 262144)]
  wrapBlock idbType body

def buildEpb (ifaceId : Nat) (pkt : PcapPacket) : Except Error Bytes := do
  let tsTicks := roundHalfEven (pkt.timestamp * 1000000)
  -- the shift and the masks, which also floor a negative number
  let tsHigh := tsTicks / 2 ^ 32 % 2 ^ 32
  let tsLow := tsTicks % 2 ^ 32
  let header ← packIn .little [(.I, ifaceId), (.I, tsHigh), (.I, tsLow), (.I, pkt.data.length),
    (.I, pkt.originalLength)]
  wrapBlock epbType (header ++ pkt.data)

def ifaceIdOf (interfaces : OrderedDict Int Nat) (linkType : Int) : Except Error Nat :=
  match interfaces.get? linkType with
  | none => .error .keyError
  | some ifaceId => .ok ifaceId

def writePcapng (packets : List PcapPacket) : Except Error Bytes := do
  let interfaces := internLinkTypes packets
  let shb ← buildShb
  let idbs ← interfaces.keys.mapM buildIdb
  let epbs ← packets.mapM fun pkt => do
    let ifaceId ← ifaceIdOf interfaces pkt.linkType
    buildEpb ifaceId pkt
  pure (shb ++ (idbs.flatten ++ epbs.flatten))

end Rtpkit

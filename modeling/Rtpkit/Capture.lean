import Rtpkit.PcapReader
import Rtpkit.PcapngReader

namespace Rtpkit

open Chunk

def pcapngMagic : Bytes := [0x0a, 0x0d, 0x0d, 0x0a]

def isPcapng (data : Bytes) : Bool := slice data 0 4 = pcapngMagic

def readCapture (data : Bytes) : Yielded PcapPacket Error :=
  if isPcapng data then readPcapng data else readPcap data

def readCaptureLenient (data : Bytes) : Yielded PcapPacket Error :=
  if isPcapng data then readPcapngLenient data else readPcapLenient data

end Rtpkit

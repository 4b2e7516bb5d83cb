import Rtpkit.Errors
import Mathlib.Data.Rat.Defs

namespace Rtpkit

/-- One record of a capture file; the timestamp is an exact rational. -/
structure PcapPacket where
  timestamp : ℚ
  capturedLength : Int
  originalLength : Int
  linkType : Int
  data : Bytes
  deriving DecidableEq, Repr

end Rtpkit

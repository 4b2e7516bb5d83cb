import Rtpkit.RtcpRebuild
import Rtpkit.RtpImage
import Rtpkit.StreamInvariant
import Rtpkit.StreamReorder
import Rtpkit.StreamShiftRun
import Rtpkit.StreamJitter
import Rtpkit.StreamLoss
import Rtpkit.StreamIsolation
import Rtpkit.StreamDelivery
import Rtpkit.Truncation
import Rtpkit.CaptureRewrite
import Rtpkit.PcapngSections
import Rtpkit.PcapngSectionImage
import Rtpkit.PcapngNumbering
import Rtpkit.EncapChecksum
import Rtpkit.LaterFragment
import Rtpkit.DeclaredLength
import Rtpkit.SyntheticCapture
import Rtpkit.Detection
import Rtpkit.FlowMeaning
import Rtpkit.ExtensionLegal
import Rtpkit.TruncatedPacket
import Rtpkit.PcapngSimple
import Rtpkit.SdesGrammar
import Rtpkit.RtcpSafety
import Rtpkit.CaptureSafety
import Rtpkit.DecapSafety
import Rtpkit.PcapVariants
import Rtpkit.JitterClosedForm
import Rtpkit.G711Accuracy
import Rtpkit.BitFlips
import Rtpkit.FuzzSuite
import Rtpkit.RtpAudit
import Rtpkit.RtpMending
import Rtpkit.StrictTruncation
import Rtpkit.DamageContainment
import Rtpkit.CaptureSalvage
import Rtpkit.CallRecovery
import Rtpkit.FlowRecognition
import Rtpkit.HeaderSnapshot
import Rtpkit.SessionRecovery

import EmbenetNode.Lib.ByteStuffing
import EmbenetNode.Lib.Deframer
import EmbenetNode.Lib.Checked
import EmbenetNode.Lib.GuardedRun
import EmbenetNode.Lib.Numeral
import EmbenetNode.Brt.Model
import EmbenetNode.Brt.Refinement
import EmbenetNode.Brt.Progress
import EmbenetNode.Brt.Stream
import EmbenetNode.Brt.Soundness
import EmbenetNode.Brt.FrameCheck
import EmbenetNode.Brt.ErrorDetection
import EmbenetNode.Brt.ShortBuffer
import EmbenetNode.Brt.Transmit
import EmbenetNode.Brt.Acceptance
import EmbenetNode.Brt.Raw
import EmbenetNode.Brt.Transparency
import EmbenetNode.CriticalSection.Model
import EmbenetNode.CriticalSection.Preemption
import EmbenetNode.Timer.Model
import EmbenetNode.Timer.Compare
import EmbenetNode.Timer.Clock
import EmbenetNode.Radio.Model
import EmbenetNode.Radio.System
import EmbenetNode.Radio.Rearm
import EmbenetNode.Radio.Reception
import EmbenetNode.Radio.Coalescing
import EmbenetNode.Radio.Stale
import EmbenetNode.Radio.Channel
import EmbenetNode.Radio.RoundTrip
import EmbenetNode.Radio.FailedCalls
import EmbenetNode.Radio.LengthCheck
import EmbenetNode.Radio.Freshness
import EmbenetNode.Mqttsn.Model
import EmbenetNode.Mqttsn.Liveness
import EmbenetNode.Mqttsn.Running
import EmbenetNode.Mqttsn.Stopped
import EmbenetNode.Mqttsn.Identity
import EmbenetNode.Mqttsn.Control
import EmbenetNode.CustomService.Model
import EmbenetNode.Services.Messages
import EmbenetNode.Services.LateTasks
import EmbenetNode.Brt.GoodResidue
import EmbenetNode.CriticalSection.Unmatched
import EmbenetNode.Lib.Simulation
import EmbenetNode.Lib.OneShot
import EmbenetNode.Radio.Transmission
import EmbenetNode.Radio.Link
import EmbenetNode.Timer.Alarm
import EmbenetNode.Brt.Line
import EmbenetNode.Brt.Mixed
import EmbenetNode.Mqttsn.Button
import EmbenetNode.Mqttsn.Recovery
import EmbenetNode.Services.Periodic
import EmbenetNode.Brt.Sections
import EmbenetNode.Application.Model
import EmbenetNode.Application.Network
import EmbenetNode.Application.Leds

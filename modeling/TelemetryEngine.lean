import TelemetryEngine.Lib.Bytes
import TelemetryEngine.Parsers
import TelemetryEngine.Stages
import TelemetryEngine.Windows
import TelemetryEngine.Locality
import TelemetryEngine.Wire
import TelemetryEngine.Lib.Queue
import TelemetryEngine.RingBuffer
import TelemetryEngine.FlowTracker
import TelemetryEngine.FlowKeys
import TelemetryEngine.Lib.Program
import TelemetryEngine.Publisher
import TelemetryEngine.Confirms
import TelemetryEngine.Lib.Monitor
import TelemetryEngine.Threads
import TelemetryEngine.CaptureLoop
import TelemetryEngine.PacketBuffer
import TelemetryEngine.Shutdown
import TelemetryEngine.FlowRuns
import TelemetryEngine.Sizes
import TelemetryEngine.Fragments
import TelemetryEngine.RawSocket
import TelemetryEngine.Lifecycle
import TelemetryEngine.CaptureRuns
import TelemetryEngine.Lib.Json
import TelemetryEngine.Message
import TelemetryEngine.Checksum
import TelemetryEngine.Lib.Counter
import TelemetryEngine.Counters
import TelemetryEngine.Reports
import TelemetryEngine.Engine
import TelemetryEngine.Subscriber
import TelemetryEngine.Budgets
import TelemetryEngine.Progress
import TelemetryEngine.Session
import TelemetryEngine.WellFormed
import TelemetryEngine.Accounting
import TelemetryEngine.Traffic
import TelemetryEngine.Footprint
import TelemetryEngine.LocalIps
import TelemetryEngine.Main
import TelemetryEngine.Delivery
import TelemetryEngine.Exit

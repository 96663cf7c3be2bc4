import Lexaire.Bridge.Envelope
import Lexaire.Bridge.Rejection
import Lexaire.Bridge.AbortLatch
import Lexaire.Bridge.SessionLatches
import Lexaire.Config.Startup
import Lexaire.Orchestrator.BridgeLoss
import Lexaire.Orchestrator.Audit
import Lexaire.Bridge.Requests
import Lexaire.Orchestrator.Socket
import Lexaire.System.Machine
import Lexaire.System.Requests
import Lexaire.System.SpokenArm
import Lexaire.System.Script
import Lexaire.System.StaleMotion
import Lexaire.Orchestrator.Process
import Lexaire.Orchestrator.Guards
import Lexaire.Orchestrator.AbortPriority
import Lexaire.Orchestrator.Survival
import Lexaire.Bridge.Results
import Lexaire.Bridge.Replies
import Lexaire.Orchestrator.Boundary
import Lexaire.Orchestrator.Stuck
import Lexaire.Bridge.Telemetry
import Lexaire.Core.Exact
import Lexaire.Tui.Telemetry
import Lexaire.Core.Dict
import Lexaire.Core.Pairing
import Lexaire.Sensor.Subscriber
import Lexaire.Sensor.Matcher
import Lexaire.Tui.Menu
import Lexaire.Tui.Deploys
import Lexaire.Publisher.Deploys
import Lexaire.Core.JsonText
import Lexaire.Core.JsonScan
import Lexaire.Core.JsonRoundTrip
import Lexaire.Core.Base64
import Lexaire.Core.Lines
import Lexaire.Replay.Store
import Lexaire.Replay.Session
import Lexaire.Orchestrator.EndReason
import Lexaire.Bridge.Outage
import Lexaire.Stt.Keyword
import Lexaire.Orchestrator.TelemetryHistory
import Lexaire.Orchestrator.VlmPool
import Lexaire.Core.LineEnds
import Lexaire.Replay.BadLines
import Lexaire.Sensor.OutputQueue
import Lexaire.Tui.SubView
import Lexaire.Core.Shell
import Lexaire.Tui.DeployCommand
import Lexaire.Core.ShellRun
import Lexaire.Tui.RelayProbe
import Lexaire.Bridge.Params
import Lexaire.Core.Median
import Lexaire.Perception.Detectors
import Lexaire.Perception.Scenes
import Lexaire.Core.Url
import Lexaire.System.Endpoints
import Lexaire.Core.ShellProcess
import Lexaire.Tui.LocalQuoting
import Lexaire.Core.Monitor
import Lexaire.Core.MonitorRules
import Lexaire.Sensor.Threads
import Lexaire.Sensor.Delivery
import Lexaire.System.ExactlyOnce
import Lexaire.System.Status
import Lexaire.Core.Crew
import Lexaire.Orchestrator.Shutdown
import Lexaire.Bridge.Lifecycle
import Lexaire.Bridge.Discipline
import Lexaire.Bridge.Stopping
import Lexaire.System.Provenance
import Lexaire.Core.JsonSchema
import Lexaire.Orchestrator.Tools
import Lexaire.System.ToolContract

import Fusion.Lib.Transition
import Fusion.Lib.Dict
import Fusion.Lib.Rounding
import Fusion.Lib.Precedence
import Fusion.Lib.CompareAndSet
import Fusion.Lib.Json
import Fusion.Lib.Utf8
import Fusion.Lib.JsonReader
import Fusion.Lib.JsonWriter
import Fusion.Lib.JsonReread
import Fusion.Lib.JsonCanonical
import Fusion.Lib.JsonEncoded
import Fusion.Lib.FileTree
import Fusion.Lib.Mailbox
import Fusion.Lib.ShiftRegister
import Fusion.Contracts.Command
import Fusion.Contracts.Timeline
import Fusion.Contracts.CueOrder
import Fusion.Core.EventBus
import Fusion.Core.BusHistory
import Fusion.Core.ControlSession
import Fusion.Core.SessionHistory
import Fusion.Core.Ledger
import Fusion.Core.ConfigService
import Fusion.Core.ConfigOutcome
import Fusion.Core.DeviceRuntime
import Fusion.Core.RuntimeSteps
import Fusion.Core.Submission
import Fusion.Core.Lifecycle
import Fusion.Core.Fencing
import Fusion.Core.Exclusivity
import Fusion.Core.Drivers
import Fusion.Core.CompletionLevel
import Fusion.Core.Expiry
import Fusion.Core.Authority
import Fusion.Core.Leases
import Fusion.Core.QuietApply
import Fusion.Core.ConfigApply
import Fusion.Core.BlobStore
import Fusion.Core.BlobSaves
import Fusion.Core.TimelineSteps
import Fusion.Core.CueGating
import Fusion.Core.NetworkSteps
import Fusion.Core.OutcomeAgreement
import Fusion.Core.StuckCues
import Fusion.Core.ResyncScope
import Fusion.Core.CueCredit
import Fusion.Core.DeviceNetwork
import Fusion.Core.DeviceRuns
import Fusion.Core.RunEnd
import Fusion.Core.ShowController
import Fusion.Core.OneShow
import Fusion.Core.TriggerEngine
import Fusion.Core.Cooldown
import Fusion.Core.Debounce
import Fusion.Io.TextEventParsing
import Fusion.Io.SerialEndpoint
import Fusion.Io.ModbusFraming
import Fusion.Io.ModbusAnswers
import Fusion.Io.SerialSession
import Fusion.Io.BusTransactions
import Fusion.Io.OscFraming
import Fusion.Io.OscContainment
import Fusion.Io.LineChunks
import Fusion.Transport.EventsWs
import Fusion.Transport.Remote
import Fusion.Transport.MqttMessages
import Fusion.Transport.MqttReconnect
import Fusion.Plugins.Mightyzap
import Fusion.Plugins.MightyzapCompletion
import Fusion.Plugins.MightyzapPolls
import Fusion.Apps.Scheduler
import Fusion.Apps.SchedulerSteps
import Fusion.Apps.ShowCalls
import Fusion.Apps.FailedArm
import Fusion.Apps.AbortEnds
import Fusion.Apps.SchedulerConfig
import Fusion.Apps.ShowContainment
import Fusion.Apps.ShowLease
import Fusion.Apps.MpvPlayer
import Fusion.Core.ContentHash
import Fusion.Core.CueOutcomes
import Fusion.Apps.SettingCoordinator
import Fusion.Apps.GroupDeployment
import Fusion.Transport.Http
import Fusion.Transport.FileTransfer
import Fusion.Core.AdapterBench
import Fusion.Simulation.FakeMotor
import Fusion.Simulation.MotorCompletion
import Fusion.Simulation.MotorMotion
import Fusion.Simulation.FakeVideoPlayer
import Fusion.Simulation.VideoPlayback

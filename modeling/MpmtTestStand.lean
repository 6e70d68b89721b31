import MpmtTestStand.Ports.AcknowledgedSend
import MpmtTestStand.Ports.Framing
import MpmtTestStand.Ports.BrokenSend
import MpmtTestStand.Ports.FrameBound
import MpmtTestStand.Ports.ReceiveTimeout
import MpmtTestStand.Ports.LogMessage
import MpmtTestStand.Ports.PseudoAxis
import MpmtTestStand.Ports.AckDiscipline
import MpmtTestStand.Ports.LimitSwitch
import MpmtTestStand.Ports.MotionTracking
import MpmtTestStand.Ports.TimerProgramming
import MpmtTestStand.Ports.ExactProfile
import MpmtTestStand.Ports.ScanSequence
import MpmtTestStand.Ports.ScanGrid
import MpmtTestStand.Ports.ScanMeasurement
import MpmtTestStand.Ports.ScanRecords
import MpmtTestStand.Ports.RequestResponse
import MpmtTestStand.Ports.DispatchOnce
import MpmtTestStand.Ports.ArduinoMove
import MpmtTestStand.Ports.StopHandling
import MpmtTestStand.Ports.ControllerSends
import MpmtTestStand.Ports.StartPreemption
import MpmtTestStand.Ports.MoveEnd
import MpmtTestStand.Ports.HomingEnd
import MpmtTestStand.Ports.HomingDistance
import MpmtTestStand.Ports.MoveRequest
import MpmtTestStand.Ports.Decoders
import MpmtTestStand.Ports.Codecs
import MpmtTestStand.Ports.Connecting
import MpmtTestStand.Ports.Modes
import MpmtTestStand.Ports.Ledger
import MpmtTestStand.Ports.LinkHistory
import MpmtTestStand.Ports.ServiceEnd
import MpmtTestStand.Ports.HostVerdicts
import MpmtTestStand.Ports.MoveOutcome
import MpmtTestStand.Ports.Travel
import MpmtTestStand.Ports.Readout
import MpmtTestStand.Ports.CalibrationInUse
import MpmtTestStand.Ports.ExistingAxes
import MpmtTestStand.Ports.CallsComplete

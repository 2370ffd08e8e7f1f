import Voyager.Library.Transition
import Voyager.Library.Mealy
import Voyager.Library.Stuffing
import Voyager.Library.StopAndWait
import Voyager.Library.BoundedQueue
import Voyager.Library.SlotRing
import Voyager.Library.MemBlock
import Voyager.Library.Words
import Voyager.Library.RecMutex
import Voyager.Library.FlatJson
import Voyager.Library.JsonNumbers
import Voyager.Library.Utf16
import Voyager.Library.Crc
import Voyager.Library.OnesComplement
import Voyager.Library.InsertionSort
import Voyager.Library.FirstMinimum
import Voyager.Library.Clock
import Voyager.Library.UnitJson
import Voyager.Lora.Frame
import Voyager.Lora.Dedup
import Voyager.Lora.DedupHistory
import Voyager.Lora.Net
import Voyager.Lora.Delivery
import Voyager.Lora.DedupFresh
import Voyager.Lora.FrameErrors
import Voyager.Lora.TxTime
import Voyager.Lora.RetryMachine
import Voyager.Lora.Config
import Voyager.Net.Slip
import Voyager.Net.EndToEnd
import Voyager.Net.Gateway
import Voyager.Net.Sharing
import Voyager.Net.ClampMss
import Voyager.Net.ClampChecksum
import Voyager.Net.Pacer
import Voyager.Net.ImprovScan
import Voyager.Net.NetStart
import Voyager.Net.GatewayFlows
import Voyager.Net.LostPort
import Voyager.Net.SharedInternet
import Voyager.Net.PeerTable
import Voyager.Kermit.RoundTrip
import Voyager.Kermit.Parser
import Voyager.Kermit.Integrity
import Voyager.Kermit.Usable
import Voyager.Kermit.SessionEnd
import Voyager.Kermit.WellOrdered
import Voyager.Kermit.Frames
import Voyager.Core.UsbPort
import Voyager.Core.FsLock
import Voyager.Core.Improv
import Voyager.Core.SerialBridge
import Voyager.Core.Button
import Voyager.Core.Dispatch
import Voyager.Core.ImprovRpc
import Voyager.Core.ImprovTasks
import Voyager.Core.ButtonTask
import Voyager.Core.Username
import Voyager.Display.WrapText
import Voyager.Display.AsciiFold
import Voyager.Display.MessageRing
import Voyager.Display.Screen
import Voyager.Display.ScreenRuns
import Voyager.Display.SplitLines
import Voyager.Display.Received
import Voyager.Web.OtaLocks
import Voyager.Web.TxNumbers
import Voyager.Web.TxOutcome
import Voyager.Web.OutQueue
import Voyager.Web.Sessions
import Voyager.Web.WsAssembly
import Voyager.Web.LateCallbacks
import Voyager.Web.TxReports
import Voyager.Web.TxRefines
import Voyager.Web.Validate
import Voyager.Web.HelperTransport
import Voyager.Web.LoraSettings
import Voyager.Web.Payload
import Voyager.Web.TextMessage
import Voyager.Web.Routes
import Voyager.Web.Access
import Voyager.Wifi.SavedNetwork
import Voyager.Wifi.Settings
import Voyager.Wifi.Scan
import Voyager.Wifi.ApSelector
import Voyager.Wifi.SettingsFile
import Voyager.Wifi.Monitor
import Voyager.Wifi.ImprovNetworks

import ConfigEnv.TunVpn.Uctun
import ConfigEnv.TunVpn.Ustun
import ConfigEnv.Proofs.ErasureCode
import ConfigEnv.Proofs.FecSlot
import ConfigEnv.Proofs.Datagram
import ConfigEnv.Proofs.FecPath
import ConfigEnv.Proofs.DirectPath
import ConfigEnv.Proofs.ShardBounds
import ConfigEnv.Lib.Queue
import ConfigEnv.Proofs.ReadLoop
import ConfigEnv.Proofs.ConnTable
import ConfigEnv.Lib.Window
import ConfigEnv.Lib.Memory
import ConfigEnv.Spec.Stream
import ConfigEnv.Spec.Arrivals
import ConfigEnv.Proofs.Delivery
import ConfigEnv.Proofs.FecIntegrity
import ConfigEnv.Proofs.GatewayIsolation
import ConfigEnv.Proofs.FlowBinding
import ConfigEnv.Proofs.SendChecks
import ConfigEnv.Proofs.PathLiveness
import ConfigEnv.Proofs.ServerRestart
import ConfigEnv.Proofs.ClientRestart
import ConfigEnv.Proofs.BufferReads
import ConfigEnv.Proofs.SendLeak
import ConfigEnv.Proofs.WriteLength
import ConfigEnv.TunVpn.WorkerCalls
import ConfigEnv.Proofs.DelayedWrite
import ConfigEnv.Proofs.TableOrigins
import ConfigEnv.Proofs.ShardCount
import ConfigEnv.Gps.Ubx
import ConfigEnv.Proofs.UbxFramer
import ConfigEnv.Gps.CfgTables
import ConfigEnv.Gps.CfgDump
import ConfigEnv.Proofs.CfgAnswers
import ConfigEnv.Lib.Directory
import ConfigEnv.Gps.LogRotate
import ConfigEnv.Proofs.ArchiveBound
import ConfigEnv.Gps.LogRecord
import ConfigEnv.Proofs.LogNames
import ConfigEnv.Proofs.LogBytes
import ConfigEnv.Ramoops.Backup
import ConfigEnv.Proofs.RecordSafety
import ConfigEnv.Proofs.SequenceNumbers
import ConfigEnv.Mptcp.IpRoute
import ConfigEnv.Proofs.PolicyRules
import ConfigEnv.Lib.Shell
import ConfigEnv.Mptcp.Tc
import ConfigEnv.Proofs.TcCommands
import ConfigEnv.Proofs.RuleUndo
import ConfigEnv.Proofs.StartStop
import ConfigEnv.Proofs.GatewayExpiry
import ConfigEnv.Proofs.FlowIdle
import ConfigEnv.Proofs.FrameWindow
import ConfigEnv.Proofs.FrameSoundness
import ConfigEnv.Lib.Deadline
import ConfigEnv.Proofs.PollRounds
import ConfigEnv.Lib.FillBuffer
import ConfigEnv.Gps.UbxBuffer
import ConfigEnv.Proofs.FrameBounds
import ConfigEnv.Proofs.LogChoice
import ConfigEnv.Lib.CharArray
import ConfigEnv.Gps.TimeZone
import ConfigEnv.Proofs.FirstLine
import ConfigEnv.Proofs.SequenceCounter
import ConfigEnv.Lib.Gaps
import ConfigEnv.Mptcp.Failover
import ConfigEnv.Proofs.FailoverVerdict
import ConfigEnv.Lib.Registers
import ConfigEnv.Icm20608.Iio
import ConfigEnv.Proofs.SensorAttributes
import ConfigEnv.Proofs.CalibrationBias
import ConfigEnv.Icm20608.CharDriver
import ConfigEnv.Proofs.SensorDrivers
import ConfigEnv.Speedtest.Download
import ConfigEnv.Proofs.DownloadBytes
import ConfigEnv.Lib.Csv
import ConfigEnv.Lib.Utf16
import ConfigEnv.Speedtest.CsvExport
import ConfigEnv.Proofs.CsvRoundTrip
import ConfigEnv.Usb.FindDevice
import ConfigEnv.Proofs.PortStrings
import ConfigEnv.Setup.NodeInstall
import ConfigEnv.Proofs.InstallFailure
import ConfigEnv.Lib.Numerals
import ConfigEnv.Lib.BitFields
import ConfigEnv.Tools.J1939Pgn
import ConfigEnv.Proofs.CanIdentifiers
import ConfigEnv.Lib.Lanes
import ConfigEnv.TunVpn.Oblas
import ConfigEnv.Proofs.Elimination
import ConfigEnv.Proofs.MarkSearch
import ConfigEnv.Proofs.AnyErasures
import ConfigEnv.Proofs.OblasBuilds
import ConfigEnv.Lib.Circular
import ConfigEnv.TunVpn.IhList
import ConfigEnv.TunVpn.ListTables
import ConfigEnv.TunVpn.MainLoop
import ConfigEnv.Proofs.ListTraversal
import ConfigEnv.Proofs.ListTables
import ConfigEnv.Lib.Netfilter
import ConfigEnv.Mptcp.SsRedir
import ConfigEnv.Spec.TransparentProxy
import ConfigEnv.Proofs.ProxyRules
import ConfigEnv.Proofs.ProxyPolicy
import ConfigEnv.Proofs.TableAge
import ConfigEnv.Lib.Attach
import ConfigEnv.Drivers.Probe
import ConfigEnv.Proofs.ProbeBooks
import ConfigEnv.Proofs.EntryPoints
import ConfigEnv.Lib.Fletcher
import ConfigEnv.Proofs.AlteredAnswers
import ConfigEnv.Proofs.RequestReply
import ConfigEnv.Lib.Shares
import ConfigEnv.Mptcp.Glorytun
import ConfigEnv.Spec.Tunnel
import ConfigEnv.Proofs.TunnelScript
import ConfigEnv.Proofs.Uplinks
import ConfigEnv.Lib.Delayed
import ConfigEnv.Proofs.LateReadings
import ConfigEnv.TunVpn.ReceiverCalls
import ConfigEnv.Proofs.ReceiverLoop
import ConfigEnv.TunVpn.ClientCalls
import ConfigEnv.Proofs.ClientLeak

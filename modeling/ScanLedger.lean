import ScanLedger.Lib.Prefix
import ScanLedger.Lib.Run
import ScanLedger.Lib.Meter
import ScanLedger.Lib.Tasks
import ScanLedger.Governor
import ScanLedger.Budgets
import ScanLedger.RateCeiling
import ScanLedger.TokenWait
import ScanLedger.Lib.LockedLoop
import ScanLedger.TokenRate
import ScanLedger.WindowLimit
import ScanLedger.IpAddress
import ScanLedger.Lib.Prog
import ScanLedger.Ranges
import ScanLedger.ScanGuard
import ScanLedger.Egress
import ScanLedger.Connect
import ScanLedger.Decisions
import ScanLedger.Connections
import ScanLedger.Domain
import ScanLedger.Database
import ScanLedger.Attempts
import ScanLedger.Runner
import ScanLedger.Execution
import ScanLedger.Completion
import ScanLedger.Workers
import ScanLedger.WorkerLock
import ScanLedger.Script
import ScanLedger.Tracking
import ScanLedger.Origins
import ScanLedger.Executors
import ScanLedger.Integrity
import ScanLedger.Ledger
import ScanLedger.Finished
import ScanLedger.Cancel
import ScanLedger.Recovery
import ScanLedger.Evidence
import ScanLedger.Publisher
import ScanLedger.Sequences
import ScanLedger.Delivery
import ScanLedger.Constraints
import ScanLedger.Provenance
import ScanLedger.Outcome
import ScanLedger.Phases
import ScanLedger.Survival
import ScanLedger.Claiming
import ScanLedger.Slots
import ScanLedger.Agreement
import ScanLedger.Values
import ScanLedger.Ports
import ScanLedger.Expansion
import ScanLedger.Reach
import ScanLedger.Lib.Waves
import ScanLedger.Lib.Regex
import ScanLedger.Lib.Utf8
import ScanLedger.Characters
import ScanLedger.Fingerprints
import ScanLedger.Telnet
import ScanLedger.Cpe
import ScanLedger.StatedVersions
import ScanLedger.MysqlGreeting
import ScanLedger.Lib.Split
import ScanLedger.ProtocolEnum
import ScanLedger.Lib.RoseTree
import ScanLedger.NetworkImports
import ScanLedger.PortScan
import ScanLedger.ServiceDetect
import ScanLedger.ProbeCount
import ScanLedger.Lib.Lines
import ScanLedger.ReportLines
import ScanLedger.Lib.LockedLoop
import ScanLedger.WindowLimit
import ScanLedger.CpeFields
import ScanLedger.Outbound
import ScanLedger.Lib.Expiry
import ScanLedger.ResponseCache
import ScanLedger.Lib.Dict
import ScanLedger.Payloads
import ScanLedger.Nvd
import ScanLedger.Kev
import ScanLedger.BoundedWaves
import ScanLedger.SearchIndex
import ScanLedger.ScanProgress
import ScanLedger.HostDiscovery
import ScanLedger.Enumeration
import ScanLedger.Identity
import ScanLedger.Grounding
import ScanLedger.Lib.Paging
import ScanLedger.Listing
import ScanLedger.AddressText
import ScanLedger.Normalized
import ScanLedger.Lib.JsonText
import ScanLedger.Lib.Sse
import ScanLedger.Wire
import ScanLedger.Resume
import ScanLedger.Lifecycle
import ScanLedger.Exports

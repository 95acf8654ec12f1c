import Ndmpd.Tlm.BlockOrder
import Ndmpd.Tlm.BlockDrain
import Ndmpd.Tlm.ReadOrder
import Ndmpd.Tlm.HugeFiles
import Ndmpd.Tlm.RestoreReports
import Ndmpd.Session.RefusedStart
import Ndmpd.Session.DataSockets
import Ndmpd.Session.MessageDispatch
import Ndmpd.Session.AbortWait
import Ndmpd.Session.HaltReasons
import Ndmpd.Session.ControlStream
import Ndmpd.Session.Challenges
import Ndmpd.Dates.ConcurrentPuts
import Ndmpd.Dates.LevelBackups
import Ndmpd.Backup.Traversal
import Ndmpd.Backup.TarBackup
import Ndmpd.Tlm.FramedFiles
import Ndmpd.Restore.EntryNames
import Ndmpd.Tlm.ShortFiles
import Ndmpd.Tlm.SectionRecords
import Ndmpd.Tlm.RestoredContents
import Ndmpd.History.HistoryDelivery
import Ndmpd.Tlm.MissingBuffers
import Ndmpd.Tlm.DirectoryStack
import Ndmpd.Tlm.GlobMatch
import Ndmpd.Backup.BackupParams
import Ndmpd.Backup.ExcludedNames
import Ndmpd.Foundation.FirstMatch
import Ndmpd.Tlm.SelectionOrder
import Ndmpd.Foundation.CappedText
import Ndmpd.Restore.RestoreParams
import Ndmpd.Restore.RecoveryStatus
import Ndmpd.Dates.PutFailures
import Ndmpd.Dates.DumpdatesLines
import Ndmpd.Session.DigestMessage
import Ndmpd.Session.PartialWrites
import Ndmpd.Foundation.CircularList
import Ndmpd.Tlm.JobStats
import Ndmpd.Session.RemoteRead
import Ndmpd.Backup.WholeWalk
import Ndmpd.Tlm.RecordGrants
import Ndmpd.Tlm.HeaderChecksum
import Ndmpd.Tlm.HeaderFields
import Ndmpd.Foundation.Gathered
import Ndmpd.Session.ConfigLines
import Ndmpd.Tlm.SessionBackups
import Ndmpd.Session.Base64Bounds
import Ndmpd.Dates.AppendDumptime
import Ndmpd.Foundation.Simulation
import Ndmpd.Tlm.PoolRefinement
import Ndmpd.Tlm.SharedBackups
import Ndmpd.Foundation.Xdr
import Ndmpd.Foundation.RecordStream
import Ndmpd.Session.WireFilters
import Ndmpd.Session.WireMessages
import Ndmpd.History.HistoryWire
import Ndmpd.Tlm.ReadRefinement
import Ndmpd.Foundation.RestartScan
import Ndmpd.Session.EventLoop
import Ndmpd.Session.DataTransport
import Ndmpd.Session.MagicRecord
import Ndmpd.Dates.LevelChains
import Ndmpd.Session.Workers

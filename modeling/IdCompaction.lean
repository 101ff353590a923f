import IdCompaction.Config.File
import IdCompaction.Config.Shown
import IdCompaction.Proofs.Memory.Balance
import IdCompaction.Proofs.Table.History
import IdCompaction.Proofs.Table.Renaming
import IdCompaction.Proofs.Table.Restored
import IdCompaction.Proofs.Validation.Duplicates
import IdCompaction.Session.Run
import IdCompaction.Proofs.Validation.Sentinel
import IdCompaction.Proofs.Validation.Remapped
import IdCompaction.Proofs.Rely
import IdCompaction.Proofs.Table.Later
import IdCompaction.Proofs.Table.PointReads
import IdCompaction.Proofs.Table.CutShort
import IdCompaction.Proofs.Table.SharedBatch
import IdCompaction.Proofs.Table.RelabelFault
import IdCompaction.Proofs.Table.SharedRelabel
import IdCompaction.Proofs.Grid.Rank
import IdCompaction.Proofs.Grid.Dispatch
import IdCompaction.Proofs.Validation.Refusal
import IdCompaction.Proofs.Validation.Scan
import IdCompaction.Proofs.Validation.OneWorker
import IdCompaction.Proofs.Validation.Overrun
import IdCompaction.Proofs.Validation.Calls
import IdCompaction.Proofs.Memory.Journal
import IdCompaction.Proofs.Table.Lease
import IdCompaction.Proofs.Grid.Overflow
import IdCompaction.Proofs.Grid.Global
import IdCompaction.Proofs.Json.Spacing
import IdCompaction.Proofs.Json.Literal
import IdCompaction.Proofs.Json.Numeral
import IdCompaction.Proofs.Json.Tree
import IdCompaction.Proofs.Json.Extension
import IdCompaction.Proofs.Json.Override
import IdCompaction.Proofs.Config.Defaults
import IdCompaction.Proofs.Config.RoundTrip

import TableStore.Proofs.Double.Decimal
import TableStore.Proofs.Text.Base64
import TableStore.Proofs.Text.Utf8
import TableStore.Session
import TableStore.Store.Sorted
import TableStore.Proofs.Engine.Alike
import TableStore.Proofs.Engine.Arrival
import TableStore.Proofs.Engine.Backfill
import TableStore.Proofs.Engine.Columns
import TableStore.Proofs.Engine.Duplicates
import TableStore.Proofs.Engine.Failure
import TableStore.Proofs.Engine.IndexAgreement
import TableStore.Proofs.Engine.IndexInverse
import TableStore.Proofs.Engine.InsertOrder
import TableStore.Proofs.Engine.Inserted
import TableStore.Proofs.Engine.Isolation
import TableStore.Proofs.Engine.NewRows
import TableStore.Proofs.Engine.Partition
import TableStore.Proofs.Engine.Planner
import TableStore.Proofs.Engine.Query
import TableStore.Proofs.Engine.Residue
import TableStore.Proofs.Engine.Selection
import TableStore.Proofs.Engine.StoredRows
import TableStore.Proofs.Key.Distinction
import TableStore.Proofs.Result.Document
import TableStore.Proofs.Session
import TableStore.Proofs.Statement.DefinedTable
import TableStore.Proofs.Statement.OwnFaults
import TableStore.Proofs.Statement.PrintedChange
import TableStore.Proofs.Statement.PrintedDefinition
import TableStore.Proofs.Statement.Structure
import TableStore.Proofs.Value.Pattern
import TableStore.Proofs.Value.PlainText

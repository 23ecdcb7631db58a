import ColumnStats.Binary64.Bits
import ColumnStats.Main
import ColumnStats.Proofs.Acceptance
import ColumnStats.Proofs.Blame
import ColumnStats.Proofs.Histories
import ColumnStats.Proofs.MeanError
import ColumnStats.Proofs.NonFinite
import ColumnStats.Proofs.Output
import ColumnStats.Proofs.ReadFaults
import ColumnStats.Proofs.Truncation
import ColumnStats.Proofs.Renderings
import ColumnStats.Proofs.Selection
import ColumnStats.Proofs.Diagnostics
import ColumnStats.Proofs.ReadBack
import ColumnStats.Proofs.Samples
import ColumnStats.Proofs.Editions
import ColumnStats.Proofs.Bands
import ColumnStats.Proofs.Requests
import ColumnStats.Proofs.Literals
import ColumnStats.Proofs.Edits
import ColumnStats.Proofs.Exactness
import ColumnStats.Proofs.Monotone
import ColumnStats.Proofs.Reflection
import ColumnStats.Proofs.WholeNumbers
import ColumnStats.Proofs.Constant

import MachineCatalog.Main
import MachineCatalog.Proofs.Loading.Modes
import MachineCatalog.Proofs.WireForm.Equality
import MachineCatalog.Proofs.WireForm.RoundTrip
import MachineCatalog.Proofs.Loading.Shapes
import MachineCatalog.Proofs.Loading.Structure
import MachineCatalog.Proofs.Value.Integers
import MachineCatalog.Proofs.Number.Decimal
import MachineCatalog.Proofs.WireForm.Handling
import MachineCatalog.Proofs.Json.Soundness
import MachineCatalog.Proofs.Report.Reloading
import MachineCatalog.Proofs.Storage.Buckets
import MachineCatalog.Proofs.Storage.Moves
import MachineCatalog.Proofs.Storage.Commuting
import MachineCatalog.Proofs.Loading.Directories
import MachineCatalog.Proofs.CommandLine.Rejections
import MachineCatalog.Proofs.Report.Html
import MachineCatalog.Proofs.FileTree
import MachineCatalog.Proofs.CommandLine.Writing
import MachineCatalog.Proofs.Timestamp.Acceptance
import MachineCatalog.Proofs.Timestamp.Order
import MachineCatalog.Proofs.UrlPattern
import MachineCatalog.Proofs.WireForm.Respelling
import MachineCatalog.Proofs.Report.Zones
import MachineCatalog.Proofs.Report.Reordering
import MachineCatalog.Proofs.Report.Markdown
import MachineCatalog.Proofs.Settings
import MachineCatalog.Proofs.Report.Selecting
import MachineCatalog.Proofs.NumericId
import MachineCatalog.Proofs.Builder
import MachineCatalog.Proofs.Loading.Formats

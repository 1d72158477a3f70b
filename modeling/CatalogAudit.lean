import CatalogAudit.Main
import CatalogAudit.Proofs.Catalog.Compact
import CatalogAudit.Proofs.Catalog.Containers
import CatalogAudit.Proofs.Catalog.Deletion
import CatalogAudit.Proofs.Catalog.Discovery
import CatalogAudit.Proofs.Catalog.DistinctKeys
import CatalogAudit.Proofs.Catalog.DottedKey
import CatalogAudit.Proofs.Catalog.Editing
import CatalogAudit.Proofs.Catalog.EntryList
import CatalogAudit.Proofs.Catalog.KeyDeletion
import CatalogAudit.Proofs.Catalog.KeyLookup
import CatalogAudit.Proofs.Catalog.Loading
import CatalogAudit.Proofs.Catalog.NormalForm
import CatalogAudit.Proofs.Catalog.Trimmed
import CatalogAudit.Proofs.Command.Confinement
import CatalogAudit.Proofs.Command.FailedInputs
import CatalogAudit.Proofs.Command.FatalRun
import CatalogAudit.Proofs.Config.RoundTrip
import CatalogAudit.Proofs.Config.Search
import CatalogAudit.Proofs.Consistency.Pruned
import CatalogAudit.Proofs.Consistency.Verdict
import CatalogAudit.Proofs.Except
import CatalogAudit.Proofs.FileTree.FileName
import CatalogAudit.Proofs.FileTree.Following
import CatalogAudit.Proofs.FileTree.WellFormed
import CatalogAudit.Proofs.FileTree.Writing
import CatalogAudit.Proofs.Json.DistinctKeys
import CatalogAudit.Proofs.Json.Lexemes
import CatalogAudit.Proofs.Json.Nesting
import CatalogAudit.Proofs.Json.ReadBack
import CatalogAudit.Proofs.Json.Records
import CatalogAudit.Proofs.Json.Skipping
import CatalogAudit.Proofs.Json.Spelling
import CatalogAudit.Proofs.Path.Children
import CatalogAudit.Proofs.Path.Parents
import CatalogAudit.Proofs.PathRule.Covering
import CatalogAudit.Proofs.PathRule.Literal
import CatalogAudit.Proofs.PathRule.TestFiles
import CatalogAudit.Proofs.Report.Items
import CatalogAudit.Proofs.Scan.Attributes
import CatalogAudit.Proofs.Scan.Calls
import CatalogAudit.Proofs.Scan.FileOrder
import CatalogAudit.Proofs.Scan.Lines
import CatalogAudit.Proofs.Scan.Lookups
import CatalogAudit.Proofs.Scan.Namespaces
import CatalogAudit.Proofs.Scan.PassOrder
import CatalogAudit.Proofs.Scan.PlausibleKeys
import CatalogAudit.Proofs.Scan.PropertyKeys
import CatalogAudit.Proofs.Scan.ReadBack
import CatalogAudit.Proofs.Scan.Receivers
import CatalogAudit.Proofs.Scan.Routes
import CatalogAudit.Proofs.Scan.TemplateNotes
import CatalogAudit.Proofs.Scan.TracedKeys
import CatalogAudit.Proofs.Scan.WholeWords
import CatalogAudit.Proofs.Scan.WordEdges
import CatalogAudit.Proofs.SourceFiles.Listing
import CatalogAudit.Proofs.SourceFiles.Names
import CatalogAudit.Proofs.SourceFiles.Spelling
import CatalogAudit.Proofs.SourceFiles.Walk
import CatalogAudit.Proofs.Surplus.Consistency
import CatalogAudit.Proofs.Surplus.Convergence
import CatalogAudit.Proofs.Surplus.DottedKeys
import CatalogAudit.Proofs.Surplus.FailedSaves
import CatalogAudit.Proofs.Surplus.FoundKeys
import CatalogAudit.Proofs.Surplus.MoreUsage
import CatalogAudit.Proofs.Surplus.PlainKeys
import CatalogAudit.Proofs.Surplus.Pruning
import CatalogAudit.Proofs.Surplus.Saving
import CatalogAudit.Proofs.Text.Bytes
import CatalogAudit.Proofs.Text.Searching
import CatalogAudit.Proofs.Text.Splitting
import CatalogAudit.Proofs.Usage.Bindings

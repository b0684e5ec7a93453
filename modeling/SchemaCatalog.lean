import SchemaCatalog.Catalog.Batch
import SchemaCatalog.Catalog.Delete
import SchemaCatalog.Catalog.Find
import SchemaCatalog.Document.Definition
import SchemaCatalog.Workspace
import SchemaCatalog.Proofs.SqlType.Reading
import SchemaCatalog.Proofs.SqlType.Scanning
import SchemaCatalog.Proofs.SqlType.Printing
import SchemaCatalog.Proofs.Name.Folding
import SchemaCatalog.Proofs.Catalog.Chain
import SchemaCatalog.Proofs.Catalog.Operation
import SchemaCatalog.Proofs.Catalog.Built
import SchemaCatalog.Proofs.Catalog.Undo
import SchemaCatalog.Proofs.Catalog.Coherence
import SchemaCatalog.Proofs.Catalog.CoherentEdits
import SchemaCatalog.Proofs.Catalog.Flat
import SchemaCatalog.Proofs.Catalog.Refinement
import SchemaCatalog.Proofs.Catalog.Tidy
import SchemaCatalog.Proofs.Name.Spelling
import SchemaCatalog.Proofs.Catalog.Interchange
import SchemaCatalog.Proofs.Catalog.PlainName
import SchemaCatalog.Proofs.SqlType.Unambiguous
import SchemaCatalog.Proofs.SqlType.Layout
import SchemaCatalog.Proofs.SqlType.Nesting
import SchemaCatalog.Proofs.SqlType.ErrorPlace
import SchemaCatalog.Proofs.SqlType.Spacing
import SchemaCatalog.Proofs.SqlType.LetterCase
import SchemaCatalog.Proofs.SqlType.NestingLimit
import SchemaCatalog.Proofs.SqlType.Trimming
import SchemaCatalog.Proofs.Catalog.Resolution
import SchemaCatalog.Proofs.Catalog.Permanence
import SchemaCatalog.Proofs.Catalog.LocalChange
import SchemaCatalog.Proofs.Catalog.Registration
import SchemaCatalog.Proofs.Catalog.Reapplication
import SchemaCatalog.Proofs.Catalog.Batch
import SchemaCatalog.Proofs.Catalog.BatchOrder
import SchemaCatalog.Proofs.Catalog.BatchOutcome
import SchemaCatalog.Proofs.Catalog.Contention
import SchemaCatalog.Proofs.Document.RoundTrip
import SchemaCatalog.Proofs.Document.Completion
import SchemaCatalog.Proofs.Text.Lowered
import SchemaCatalog.Proofs.Catalog.Face
import SchemaCatalog.Proofs.Catalog.CreateEffect
import SchemaCatalog.Proofs.Catalog.DeleteEffect
import SchemaCatalog.Proofs.Catalog.Selections
import SchemaCatalog.Proofs.Catalog.Canonical
import SchemaCatalog.Proofs.Catalog.GroupDeletes
import SchemaCatalog.Proofs.Catalog.Places
import SchemaCatalog.Proofs.Catalog.Pruning
import SchemaCatalog.Proofs.SqlType.Progress
import SchemaCatalog.Proofs.SqlType.DescentVerdict

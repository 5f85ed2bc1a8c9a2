import WorkflowStudio.Checks.Consistency
import WorkflowStudio.Checks.Publication
import WorkflowStudio.Failure
import WorkflowStudio.Log.Scope
import WorkflowStudio.Log.Setup
import WorkflowStudio.Proofs.AgreedTexts
import WorkflowStudio.Proofs.BatchEntries
import WorkflowStudio.Proofs.DebouncedCalls
import WorkflowStudio.Proofs.DistinctEdges
import WorkflowStudio.Proofs.DocumentGraph
import WorkflowStudio.Proofs.ExportedDocument
import WorkflowStudio.Proofs.FilledInputs
import WorkflowStudio.Proofs.FilledSettings
import WorkflowStudio.Proofs.HighlightedRecords
import WorkflowStudio.Proofs.JumpedEntries
import WorkflowStudio.Proofs.LoadedCatalog
import WorkflowStudio.Proofs.LoadedGraph
import WorkflowStudio.Proofs.MirroredNeighbours
import WorkflowStudio.Proofs.NamedIntents
import WorkflowStudio.Proofs.NavigatedBatches
import WorkflowStudio.Proofs.NearestAncestors
import WorkflowStudio.Proofs.NewKeyLabels
import WorkflowStudio.Proofs.NumberedLabels
import WorkflowStudio.Proofs.OfferedParams
import WorkflowStudio.Proofs.PlacedBindings
import WorkflowStudio.Proofs.ReachedEnd
import WorkflowStudio.Proofs.RecoveredReferences
import WorkflowStudio.Proofs.ReloadedParams
import WorkflowStudio.Proofs.RereadGraph
import WorkflowStudio.Proofs.SavedEdits
import WorkflowStudio.Proofs.TracedGuards
import WorkflowStudio.Proofs.ValidGraph
import WorkflowStudio.Schema

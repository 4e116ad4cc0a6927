import ValueDocs.Main
import ValueDocs.Record
import ValueDocs.Proofs.ProsePlaces
import ValueDocs.Proofs.OwnLines
import ValueDocs.Proofs.Printing
import ValueDocs.Proofs.PassResult
import ValueDocs.Proofs.SuggestedFix
import ValueDocs.Proofs.Batch
import ValueDocs.Proofs.PagesOfSymbol
import ValueDocs.Proofs.StagedPass
import ValueDocs.Proofs.AuthoredOrder
import ValueDocs.Proofs.ExactNames
import ValueDocs.Proofs.ResolvedContent
import ValueDocs.Proofs.AbsoluteReferences
import ValueDocs.Proofs.Sections
import ValueDocs.Proofs.FencedCode
import ValueDocs.Proofs.PageBody
import ValueDocs.Proofs.RunReturns
import ValueDocs.Proofs.LatestRun
import ValueDocs.Proofs.SharedEngine
import ValueDocs.Proofs.DiagnosticViews
import ValueDocs.Proofs.ItemSpans
import ValueDocs.Proofs.KernelOrder
import ValueDocs.Proofs.RenderedPlan
import ValueDocs.Proofs.ResolvedProse
import ValueDocs.Proofs.WrittenReferences
import ValueDocs.Proofs.LoadedSettings
import ValueDocs.Proofs.SettingsSearch
import ValueDocs.Proofs.DeclaredNames
import ValueDocs.Proofs.IntroducedValues
import ValueDocs.Proofs.PersistedRecords
import ValueDocs.Proofs.SavedSettings
import ValueDocs.Proofs.RegisteredNames
import ValueDocs.Proofs.LoggedBatch

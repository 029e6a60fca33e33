import ProviderKit.Path.Distinct
import ProviderKit.Diagnostic
import ProviderKit.Value.Wire
import ProviderKit.Value.Access
import ProviderKit.Value.Read
import ProviderKit.Schema.Document
import ProviderKit.Schema.Wire
import ProviderKit.Schema.Validation
import ProviderKit.Data
import ProviderKit.Planning.Proposal
import ProviderKit.Planning.Completion
import ProviderKit.Planning.Replacement
import ProviderKit.Provider.Basic
import ProviderKit.Server.Answer
import ProviderKit.Script.Provider
import ProviderKit.Testing.Assertion
import ProviderKit.Script.Model
import ProviderKit.Launch.Handshake
import ProviderKit.Launch.LogLevel
import ProviderKit.Proofs.Testing.Convergence
import ProviderKit.Proofs.Server.ConfigurationOrder
import ProviderKit.Proofs.Server.ReplacementOrder
import ProviderKit.Proofs.Server.Application
import ProviderKit.Proofs.Value.Codec
import ProviderKit.Proofs.Data.Edits
import ProviderKit.Proofs.Server.ProviderData
import ProviderKit.Proofs.Server.Dispatch
import ProviderKit.Proofs.Data.FailedWrites
import ProviderKit.Proofs.Server.ConfigurationSequence
import ProviderKit.Proofs.Server.Reports
import ProviderKit.Proofs.Server.Replanning
import ProviderKit.Proofs.Value.Equivalence
import ProviderKit.Proofs.Value.SetOrder
import ProviderKit.Proofs.Value.Grammar
import ProviderKit.Proofs.Planning.Merge
import ProviderKit.Proofs.Planning.Replacements
import ProviderKit.Proofs.Value.Pruning
import ProviderKit.Proofs.Value.UnknownPaths
import ProviderKit.Proofs.Value.Frame
import ProviderKit.Proofs.Server.ReportedSchemas
import ProviderKit.Proofs.Server.StoredState
import ProviderKit.Proofs.Server.StoredVersion
import ProviderKit.Proofs.Schema.HostTypes
import ProviderKit.Proofs.Value.Marker
import ProviderKit.Proofs.Value.Spelling
import ProviderKit.Proofs.Data.ReadBack
import ProviderKit.Proofs.Server.Refresh
import ProviderKit.Proofs.Data.AttributeWrites
import ProviderKit.Proofs.Testing.Lifecycle
import ProviderKit.Proofs.Schema.Documents
import ProviderKit.Proofs.Value.TypedReads
import ProviderKit.Proofs.Schema.TypePaths
import ProviderKit.Proofs.Schema.Occurrences
import ProviderKit.Proofs.Schema.Violations
import ProviderKit.Proofs.Testing.UnknownInPlan
import ProviderKit.Proofs.Value.FailedReads
import ProviderKit.Proofs.Value.SetListing
import ProviderKit.Proofs.Planning.EqualStates
import ProviderKit.Proofs.Path.Display
import ProviderKit.Proofs.Diagnostic.Wire
import ProviderKit.Proofs.Schema.Skeletons
import ProviderKit.Proofs.Value.ExactIntegers

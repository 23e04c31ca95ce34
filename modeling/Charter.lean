import Charter.Engine.Computed
import Charter.Engine.Relationship
import Charter.Engine.Report
import Charter.Ir.Import
import Charter.Proofs.Acceptance
import Charter.Proofs.Action
import Charter.Proofs.Admission
import Charter.Proofs.CachedCompiler
import Charter.Proofs.Command
import Charter.Proofs.Commutation
import Charter.Proofs.Conditions
import Charter.Proofs.ConstraintForm
import Charter.Proofs.ContextKeys
import Charter.Proofs.CursorProgram
import Charter.Proofs.CycleMode
import Charter.Proofs.CycleWarning
import Charter.Proofs.Decision
import Charter.Proofs.Delivery
import Charter.Proofs.Dependencies
import Charter.Proofs.Exchange
import Charter.Proofs.Fingerprint
import Charter.Proofs.FiniteNumeral
import Charter.Proofs.Folding
import Charter.Proofs.Independence
import Charter.Proofs.Interruption
import Charter.Proofs.Isolation
import Charter.Proofs.JudgedRecord
import Charter.Proofs.LambdaKind
import Charter.Proofs.Leaves
import Charter.Proofs.Legibility
import Charter.Proofs.Lookup
import Charter.Proofs.LooseEquality
import Charter.Proofs.NameMeaning
import Charter.Proofs.NestingLimit
import Charter.Proofs.OpenParenthesis
import Charter.Proofs.Partition
import Charter.Proofs.Persistence
import Charter.Proofs.Publication
import Charter.Proofs.Race
import Charter.Proofs.RefreshedScope
import Charter.Proofs.Relationship
import Charter.Proofs.ReportOrder
import Charter.Proofs.Reporting
import Charter.Proofs.Rereading
import Charter.Proofs.Resolution
import Charter.Proofs.RoundTrip
import Charter.Proofs.Shelf
import Charter.Proofs.StoredConditions
import Charter.Proofs.TokenSequence
import Charter.Proofs.Transaction
import Charter.Proofs.Transition
import Charter.Proofs.VersionHistory
import Charter.Proofs.WiderLimit
import Charter.Proofs.Write
import Charter.Settings
import Charter.Source.Export

import ActorAudit.Main
import ActorAudit.Proofs.RuleSelection
import ActorAudit.Proofs.Transparency
import ActorAudit.Proofs.Retention
import ActorAudit.Proofs.MirroredGraphs
import ActorAudit.Proofs.MirroredQueries
import ActorAudit.Proofs.SurfaceMethods
import ActorAudit.Proofs.MirroredFindings
import ActorAudit.Proofs.MirroredRuns
import ActorAudit.Proofs.Annotation
import ActorAudit.Proofs.Renumbering
import ActorAudit.Proofs.HiddenTypes
import ActorAudit.Proofs.RoundTrip
import ActorAudit.Proofs.Severities
import ActorAudit.Proofs.Exclusions
import ActorAudit.Proofs.Hindsight
import ActorAudit.Proofs.UnmarkedContracts
import ActorAudit.Proofs.ContractlessActors
import ActorAudit.Proofs.UncontractedUses
import ActorAudit.Proofs.UncontractedTypes
import ActorAudit.Proofs.UncontractedRecords
import ActorAudit.Proofs.DepthFirst
import ActorAudit.Proofs.ClassTable
import ActorAudit.Proofs.ClosedGraphs
import ActorAudit.Proofs.RepeatedDeclarations
import ActorAudit.Proofs.Templates
import ActorAudit.Proofs.RuleMentions
import ActorAudit.Proofs.CheckRuns
import ActorAudit.Proofs.SettingsFiles
import ActorAudit.Proofs.ChainEnds
import ActorAudit.Proofs.LeastImplementations
import ActorAudit.Proofs.WorklistTurns
import ActorAudit.Proofs.LocationOrder
import ActorAudit.Proofs.JsonText
import ActorAudit.Proofs.ReportTexts

import BuildPlan.Main
import BuildPlan.Proofs.Blueprint.Acceptance
import BuildPlan.Proofs.Catalog.Locality
import BuildPlan.Proofs.Catalog.Provision
import BuildPlan.Proofs.Catalog.Renaming
import BuildPlan.Proofs.Collector.Events
import BuildPlan.Proofs.Collector.Turns
import BuildPlan.Proofs.Draft.Multiplying
import BuildPlan.Proofs.Draft.Operations
import BuildPlan.Proofs.Graph.Dependents
import BuildPlan.Proofs.Graph.Sorting
import BuildPlan.Proofs.Program.ExitCodes
import BuildPlan.Proofs.Program.Forms
import BuildPlan.Proofs.Program.Provided
import BuildPlan.Proofs.Release.Schedules

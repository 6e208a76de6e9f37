import Componentry.Data.Dict
import Componentry.Attributes
import Componentry.Failure
import Componentry.Text.Blank
import Componentry.Text.Separated
import Componentry.Text.Inspect
import Componentry.Text.Style
import Componentry.Failure.Report
import Componentry.Identity
import Componentry.Path
import Componentry.Glob
import Componentry.Configuration.Container
import Componentry.Log
import Componentry.Project
import Componentry.Inspection
import Componentry.Command.KeyValue
import Componentry.Command.Arguments
import Componentry.Command.Run
import Componentry.Main
import Componentry.Root.Session
import Componentry.Component
import Componentry.Rule
import Componentry.Rule.Edit
import Componentry.Rule.Book
import Componentry.Replacement
import Componentry.Toml.Reader
import Componentry.Descriptor
import Componentry.Rule.Declared
import Componentry.Artifact.View
import Componentry.Artifact.Transform
import Componentry.Artifact.Inspection
import Componentry.Workspace.Resolution
import Componentry.Workspace.Loading
import Componentry.Proofs.Replacement.Acyclic
import Componentry.Proofs.Root.Coherence
import Componentry.Proofs.Root.Retention
import Componentry.Proofs.Root.Announcement
import Componentry.Proofs.Root.Coordinates
import Componentry.Proofs.Root.Isolation
import Componentry.Proofs.Configuration.OrderedMap
import Componentry.Proofs.Artifact.Tour
import Componentry.Proofs.Artifact.Provenance
import Componentry.Proofs.Artifact.Admission
import Componentry.Proofs.Artifact.Ledger
import Componentry.Proofs.Artifact.Direct
import Componentry.Proofs.Artifact.Onward
import Componentry.Proofs.Artifact.Settlement
import Componentry.Proofs.Artifact.Independence
import Componentry.Proofs.Artifact.Restriction
import Componentry.Proofs.Artifact.Recall
import Componentry.Proofs.Workspace.Declaration
import Componentry.Proofs.Workspace.Naming
import Componentry.Proofs.Artifact.Transparency
import Componentry.Proofs.Artifact.Itinerary
import Componentry.Proofs.Artifact.Form
import Componentry.Proofs.Rule.Process
import Componentry.Proofs.Rule.ClosedForm
import Componentry.Proofs.Workspace.RootTranslation
import Componentry.Proofs.Workspace.Narrowing
import Componentry.Proofs.Workspace.Variants
import Componentry.Proofs.Rule.Execution
import Componentry.Proofs.Rule.Registration
import Componentry.Proofs.Rule.Availability
import Componentry.Proofs.Replacement.Cycle
import Componentry.Proofs.Replacement.Order
import Componentry.Proofs.Workspace.Assembly
import Componentry.Proofs.Identity.Notation
import Componentry.Proofs.Workspace.ProjectPath
import Componentry.Proofs.Failure.Telling
import Componentry.Proofs.Path.Layout
import Componentry.Proofs.Workspace.Placement
import Componentry.Proofs.Identity.RoundTrip
import Componentry.Proofs.Path.FileName
import Componentry.Proofs.Artifact.OutputFile
import Componentry.Proofs.Workspace.Inclusion
import Componentry.Proofs.Toml.Form
import Componentry.Proofs.Toml.Follow
import Componentry.Proofs.Descriptor.Strictness
import Componentry.Proofs.Attributes.Algebra
import Componentry.Proofs.Command.KeyValue

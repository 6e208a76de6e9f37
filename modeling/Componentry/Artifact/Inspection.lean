import Componentry.Artifact.View
import Componentry.Inspection

/-!
# Inspection of resolutions and views

How resolutions, views and requests for views are shown in diagnostics. A resolution shows which of
its artifacts are available, which the memo knows; filters and pipelines are not shown.
-/

namespace Componentry

open Text

def PlacedArtifact.inspect (m : Memo) (a : PlacedArtifact) : String :=
  Inspect.record "ResolvableArtifact"
    [("id", a.artifact.id.inspect),
      ("attributes", a.artifact.attributes.inspect),
      ("available", Inspect.flag (m.isAvailable a))]

def PlacedComponent.inspect (m : Memo) (c : PlacedComponent) : String :=
  Inspect.record "ResolvedComponent"
    [("id", c.id.inspect), ("artifacts", Inspect.list (c.artifacts.map (·.inspect m)))]

def Resolution.inspect (r : Resolution) (m : Memo) : String :=
  Inspect.openRecord "ResolutionResult"
    [("configuration", Inspect.quoted r.configuration),
      ("attributes", r.attributes.inspect),
      ("components", Inspect.list (r.placed.map (·.inspect m)))]

def View.inspect (v : View) : String :=
  Inspect.record "ArtifactView"
    [("configuration", Inspect.quoted v.resolution.configuration),
      ("requested", v.requested.inspect),
      ("filtered", Inspect.flag v.filter.isSome),
      ("lenient", Inspect.flag v.lenient)]

def ViewRequest.inspect (r : ViewRequest) : String :=
  Inspect.record "ViewConfiguration"
    [("filtered", Inspect.flag r.filter.isSome),
      ("attributes", r.attributes.inspect),
      ("lenient", Inspect.flag r.lenient)]

end Componentry

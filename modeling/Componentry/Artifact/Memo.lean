import Componentry.Artifact.Resolution

/-!
# Memos: the work done for a resolution

All views over a resolution share a `Memo`, so that no work is done twice: it keeps the outcome of
every build by the place of the artifact, and of every transform by the artifact's identity and the
requested attributes. Failures are kept too, as texts. The memo also lists the calls that were made
to collaborators, and what was logged.

`filePath` gives the native file of an artifact and `transformed` the files it is transformed into;
each asks its collaborator only if the memo has no outcome.
-/

namespace Componentry

/-- What identifies a transform: the artifact, and what is requested of it. -/
abbrev TransformKey := ArtifactId × Attributes

/-- The work done for a resolution. -/
structure Memo where
  /-- Outcomes of builds: the file, or why there is none. -/
  builds : List (Place × Except String Path) := []
  /-- Outcomes of transforms: the files, or why there are none. -/
  transforms : List (TransformKey × Except String (List Path)) := []
  /-- The calls made, oldest first. -/
  calls : History := []
  log : List Event := []

namespace Memo

/-- Add an event to the log. -/
def record (m : Memo) (e : Event) : Memo := { m with log := m.log ++ [e] }

/-- Add a call, with what was logged during it. -/
def called (m : Memo) (c : Call) (events : List Event) : Memo :=
  { m with calls := m.calls ++ [c], log := m.log ++ events }

/-- The outcome of a build, if it has run. -/
def build? (m : Memo) (place : Place) : Option (Except String Path) :=
  Dict.lookup place m.builds

/-- The outcome of a transform, if it has run. -/
def transform? (m : Memo) (key : TransformKey) : Option (Except String (List Path)) :=
  Dict.lookup key m.transforms

/-- What is kept of an outcome: of a failure, its text. -/
def kept {α : Type} : Except Fault α → Except String α
  | .ok a => .ok a
  | .error fault => .error fault.summary

/-- A kept outcome as it is told again: a failure becomes `told` of its text. -/
def retold {α : Type} (told : String → Failure) : Except String α → Except Fault α
  | .ok a => .ok a
  | .error reason => .error (.failure (told reason))

/-- Whether the native file of an artifact needs no build any more. -/
def isAvailable (m : Memo) (a : PlacedArtifact) : Bool :=
  match a.artifact.source with
  | .file _ => true
  | .built _ => (m.build? a.place).isSome

/-- The native file of an artifact, built if it was not built before. -/
def filePath (a : PlacedArtifact) (m : Memo) : Except Fault Path × Memo :=
  match a.artifact.source with
  | .file path => (.ok path, m)
  | .built producer =>
    let told := Failure.buildFailed a.artifact.id.display
    match m.build? a.place with
    | some outcome => (retold told outcome, m)
    | none =>
      let answer := producer m.calls a.artifact.id
      let outcome := kept answer.outcome
      let m := m.called (.produced a.artifact.id) answer.events
      (retold told outcome, { m with builds := (a.place, outcome) :: m.builds })

/-- The files that an artifact is transformed into, transformed if that was not done before. -/
def transformed (pipeline : Pipeline) (id : ArtifactId) (file : Path)
    (source requested : Attributes) (m : Memo) : Except Fault (List Path) × Memo :=
  let told := Failure.transformFailed id.display requested
  match m.transform? (id, requested) with
  | some outcome => (retold told outcome, m.record (.transformReused id requested))
  | none =>
    let m := m.record (.transformStarted id requested)
    let answer := pipeline.transform m.calls id file source requested
    let outcome := kept answer.outcome
    let m := m.called (.transformed id file source requested) answer.events
    (retold told outcome, { m with transforms := ((id, requested), outcome) :: m.transforms })

/-- Whether a pipeline can transform. -/
def canTransform (pipeline : Pipeline) (source requested : Attributes) (m : Memo) : Bool × Memo :=
  let answer := pipeline.canTransform m.calls source requested
  (answer, m.called (.asked source requested answer) [])

/-- Whether a filter accepts a component; no filter accepts all. -/
def accepts (filter : Option ComponentFilter) (id : ComponentId) (m : Memo) : Bool × Memo :=
  match filter with
  | none => (true, m)
  | some accepts =>
    let answer := accepts m.calls id
    (answer, m.called (.filtered id answer) [])

end Memo

end Componentry

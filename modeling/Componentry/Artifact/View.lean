import Componentry.Artifact.Memo

/-!
# Artifact views

A `View` selects from a resolution: a filter says which components it includes, the requested
attributes which form of their artifacts, and a lenient view leaves out artifacts that it cannot
provide. Making a view does no work.

Work is done while a view is walked. A `Cursor` is a place in the walk, and `View.next` takes it to
the next item: a file, or the failure to provide one. Each artifact of an accepted component
contributes its native file if that form is compatible with the request, else the files it is
transformed into, else a failure (`View.contribution`); `next` touches no artifact after the one
that contributes the item. `View.runUntil` walks on to a certain item, or to the end.
-/

namespace Componentry

/-- How to make a view. -/
structure ViewRequest where
  filter : Option ComponentFilter := none
  /-- Attributes requested on top of those of the configuration. -/
  attributes : Attributes := Dict.empty
  lenient : Bool := false

namespace ViewRequest

/-- Request a value for a key, in place of what was requested for it. -/
def set (request : ViewRequest) (key value : String) : ViewRequest :=
  { request with attributes := request.attributes.insert key value }

/-- Request attributes, in place of what was requested for their keys. -/
def setAll (request : ViewRequest) (attributes : Attributes) : ViewRequest :=
  { request with attributes := request.attributes.merge attributes }

end ViewRequest

/-- A selection from a resolution. -/
structure View where
  resolution : Resolution
  filter : Option ComponentFilter
  /-- The attributes that artifacts have to satisfy. -/
  requested : Attributes
  /-- Whether artifacts that cannot be provided are left out. -/
  lenient : Bool

/-- The view of a resolution that a request asks for. -/
def Resolution.view (r : Resolution) (request : ViewRequest) : View where
  resolution := r
  filter := request.filter
  requested := r.attributes.merge request.attributes
  lenient := request.lenient

/-- A file that a view provides. -/
structure ResolvedFile where
  /-- The artifact; a transformed one is named after its file. -/
  id : ArtifactId
  file : Path
  /-- The attributes of this form of the artifact. -/
  attributes : Attributes
  deriving DecidableEq

/-- What a walk yields: a file, or the failure to provide one. -/
abbrev Item := Except Fault ResolvedFile

/-- A place in a walk. -/
structure Cursor where
  /-- Items that are there but were not yielded yet. -/
  pending : List Item := []
  /-- The artifacts of the present component that are still to come. -/
  artifacts : List PlacedArtifact := []
  /-- The components that are still to come. -/
  components : List PlacedComponent

namespace View

/-! ## One artifact -/

/-- A transformed form of an artifact. -/
def transformedFile (id : ArtifactId) (attributes : Attributes) (file : Path) : ResolvedFile where
  id := ⟨id.component, file.fileName.getD id.name⟩
  file := file
  attributes := attributes

/-- The files of an artifact that satisfy the request. -/
def resolve (v : View) (a : PlacedArtifact) (m : Memo) : Except Fault (List ResolvedFile) × Memo :=
  let id := a.artifact.id
  let own := a.artifact.attributes
  if own.isCompatibleWith v.requested then
    match m.filePath a with
    | (.ok file, m) => (.ok [⟨id, file, own⟩], m)
    | (.error fault, m) => (.error fault, m)
  else
    match m.canTransform v.resolution.pipeline own v.requested with
    | (false, m) =>
      (.error (.failure (.noMatchingVariant id.component.display id.name v.requested)), m)
    | (true, m) =>
      match m.filePath a with
      | (.error fault, m) => (.error fault, m)
      | (.ok file, m) =>
        match m.transformed v.resolution.pipeline id file own v.requested with
        | (.error fault, m) => (.error fault, m)
        | (.ok files, m) => (.ok (files.map (transformedFile id (own.merge v.requested))), m)

/-- The items that an artifact contributes: its files, or one failure, which a lenient view leaves
out. -/
def contribution (v : View) (a : PlacedArtifact) (m : Memo) : List Item × Memo :=
  match v.resolve a m with
  | (.ok files, m) => (files.map .ok, m)
  | (.error fault, m) =>
    if v.lenient then ([], m.record (.artifactSkipped a.artifact.id fault.summary))
    else ([.error fault], m)

/-! ## Walking -/

/-- Whether the view includes a component. -/
def accepts (v : View) (id : ComponentId) (m : Memo) : Bool × Memo := m.accepts v.filter id

/-- The artifacts of a component that the view walks: all of them or none. -/
def admitted (v : View) (c : PlacedComponent) (m : Memo) : List PlacedArtifact × Memo :=
  match v.accepts c.id m with
  | (true, m) => (c.artifacts, m)
  | (false, m) => ([], m.record (.componentExcluded c.id v.resolution.configuration))

/-- The start of a walk. -/
def start (v : View) : Cursor := { components := v.resolution.placed }

/-- The items of the first artifact that contributes any, and the artifacts after it. -/
def drain (v : View) : List PlacedArtifact → Memo → List Item × List PlacedArtifact × Memo
  | [], m => ([], [], m)
  | a :: rest, m =>
    match v.contribution a m with
    | ([], m) => v.drain rest m
    | (items, m) => (items, rest, m)

/-- The items of the first artifact of the first component that has one that contributes any, and
what comes after it. -/
def advance (v : View) : List PlacedComponent → Memo → Cursor × Memo
  | [], m => ({ components := [] }, m)
  | c :: rest, m =>
    let (artifacts, m) := v.admitted c m
    match v.drain artifacts m with
    | ([], _, m) => v.advance rest m
    | (items, artifacts, m) => (⟨items, artifacts, rest⟩, m)

/-- Yield an item that is there. -/
def yield (c : Cursor) : Option Item × Cursor :=
  match c.pending with
  | [] => (none, c)
  | item :: rest => (some item, { c with pending := rest })

/-- The next item of a walk, doing only the work it needs; none at the end. -/
def next (v : View) (c : Cursor) (m : Memo) : Option Item × Cursor × Memo :=
  let (c, m) := match c.pending with
    | _ :: _ => (c, m)
    | [] =>
      match v.drain c.artifacts m with
      | ([], _, m) => v.advance c.components m
      | (items, artifacts, m) => (⟨items, artifacts, c.components⟩, m)
  let (item, c) := yield c
  (item, c, m)

/-- At most `n` items, no more work being done than they need. -/
def take (v : View) : Nat → Cursor → Memo → List Item × Cursor × Memo
  | 0, c, m => ([], c, m)
  | n + 1, c, m =>
    match v.next c m with
    | (none, c, m) => ([], c, m)
    | (some item, c, m) =>
      let (items, c, m) := v.take n c m
      (item :: items, c, m)

/-! ## Walking on -/

/-- The items up to the first one at which to stop, and whether there is one. -/
def cutAfter (stop : Item → Bool) : List Item → List Item × Bool
  | [] => ([], false)
  | item :: rest =>
    if stop item then ([item], true)
    else
      let (items, stopped) := cutAfter stop rest
      (item :: items, stopped)

/-- The items of some artifacts, up to the first one at which to stop. -/
def runArtifacts (v : View) (stop : Item → Bool) :
    List PlacedArtifact → Memo → (List Item × Bool) × Memo
  | [], m => (([], false), m)
  | a :: rest, m =>
    let (items, m) := v.contribution a m
    match cutAfter stop items with
    | (items, true) => ((items, true), m)
    | (items, false) =>
      let ((more, stopped), m) := v.runArtifacts stop rest m
      ((items ++ more, stopped), m)

/-- The items of some components, up to the first one at which to stop. -/
def runComponents (v : View) (stop : Item → Bool) : List PlacedComponent → Memo → List Item × Memo
  | [], m => ([], m)
  | c :: rest, m =>
    let (artifacts, m) := v.admitted c m
    match v.runArtifacts stop artifacts m with
    | ((items, true), m) => (items, m)
    | ((items, false), m) =>
      let (more, m) := v.runComponents stop rest m
      (items ++ more, m)

/-- The items of a fresh walk, up to the first one at which to stop. -/
def runUntil (v : View) (stop : Item → Bool) (m : Memo) : List Item × Memo :=
  v.runComponents stop v.resolution.placed m

/-- All items of a fresh walk. -/
def items (v : View) (m : Memo) : List Item × Memo := v.runUntil (fun _ => false) m

/-- Whether an item is a failure. -/
def isFailure : Item → Bool
  | .ok _ => false
  | .error _ => true

/-- The files among items, or the first failure. -/
def filesOf : List Item → Except Fault (List Path)
  | [] => .ok []
  | .ok resolved :: rest => (filesOf rest).map (resolved.file :: ·)
  | .error fault :: _ => .error fault

/-- The files of a fresh walk, which stops at the first failure. -/
def collect (v : View) (m : Memo) : Except Fault (List Path) × Memo :=
  let (items, m) := v.runUntil isFailure m
  (filesOf items, m)

end View

end Componentry

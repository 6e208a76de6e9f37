import Componentry.Command.Output
import Componentry.Glob
import Componentry.Workspace.Loading
import Componentry.Workspace.Resolution

/-!
# Running commands

A command runs over a loaded workspace and answers with the text that it prints, all of it at the
end: a command that fails prints nothing.

* `root` reads the root metadata; with names, all of them have to exist.
* `rules` reads all components, then runs the rules over one after the other, up to the first one
  that the rules refuse.
* `view` resolves a configuration, reads the patterns and walks the view up to its first failure. A
  component is shown if one of the patterns matches its `includeKey`.
-/

namespace Componentry

/-! ## The parts of commands -/

namespace Workspace

/-- The root metadata, or with names that of the configurations which are named. -/
def rootMetadata (w : Workspace) (names : List String) : Logged RootMetadata :=
  match names.find? fun name => !w.session.container.contains name with
  | some missing => ⟨.error (.failure (.configurationNotFound missing)), []⟩
  | none =>
    let (result, s) := if names = [] then w.session.read 0 else w.session.readNamed names
    ⟨result.map Snapshot.metadata, s.log⟩

/-- The components after the rules. -/
def processed (w : Workspace) : List Component → Logged (List Component)
  | [] => pure []
  | c :: rest => do
    let p := w.rules.process c
    ⟨p.outcome, p.trace.filterMap RuleEvent.log?⟩
    let others ← w.processed rest
    return p.component :: others

/-- What the rules make of the components. -/
def ruleReport (w : Workspace) : Logged RuleReport := do
  let components ← w.processed (← .ofClassified w.components)
  return ⟨w.rules.entries.length, components, w.replacements⟩

end Workspace

/-- What patterns for components are matched against: the path of a project, and of any other
component its display name. -/
def ComponentId.includeKey : ComponentId → String
  | project path => path
  | id => id.display

/-- The filter that accepts components which match one of some patterns. -/
def ComponentFilter.ofPatterns (patterns : List Glob.Pattern) : ComponentFilter := fun _ id =>
  patterns.any fun p => Glob.isMatch p id.includeKey.toList

/-- Read a pattern for components. -/
def readPattern (text : String) : Except Fault Glob.Pattern :=
  match Glob.compile text with
  | .ok pattern => .ok pattern
  | .error e => .error (.noted s!"Invalid --include pattern '{text}'" (.text e.display))

namespace ViewCommand

/-- The view that the command asks for. -/
def request (v : ViewCommand) : Except Fault ViewRequest :=
  (v.patterns.mapM readPattern).map fun patterns =>
    { filter := if patterns = [] then none else some (.ofPatterns patterns)
      attributes := Dict.ofList v.attributes
      lenient := v.lenient }

/-- The files that the command shows. -/
def files (v : ViewCommand) (w : Workspace) : Logged (List ResolvedFile) := do
  let r ← w.resolve v.configuration
  let request ← .ofExcept v.request
  let (items, m) := (r.view request).runUntil View.isFailure {}
  ⟨items.mapM id, m.log⟩

end ViewCommand

/-! ## The commands -/

/-- What a command prints about a workspace. -/
def Command.run (colors : Bool) (w : Workspace) : Command → Logged String
  | root names format => do
    let m ← w.rootMetadata names
    return format.print (m.lines colors) m.toJson
  | rules format => do
    let r ← w.ruleReport
    return format.print (r.lines colors) r.toJson
  | view v => do
    let files ← v.files w
    return v.format.print (files.map (ResolvedFile.line v.artifacts))
      (.list (files.map ResolvedFile.toJson))

namespace Invocation

/-- The path of the descriptor: unless one is given, it is in the directory `cwd`. -/
def descriptorPath (i : Invocation) (cwd : Path) : Path :=
  i.manifestPath.getD (cwd.join descriptorName)

/-- Whether the output has colours, `colors` saying whether the terminal has them. -/
def colors (i : Invocation) (colors : Bool) : Bool := colors && !i.noColor

/-- Run the command over the workspace of a descriptor that was read from `path`. -/
def run (i : Invocation) (colors : Bool) (path : Path) (descriptor : Except Fault Descriptor) :
    Logged String := do
  let w ← Workspace.load path descriptor
  i.command.run (i.colors colors) w

end Invocation

end Componentry

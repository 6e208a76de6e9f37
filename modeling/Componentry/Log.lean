import Componentry.Configuration

/-!
# The log

What the library reports while it works, as typed events. Each event has a level, and `Event.text`
gives its wording; `visibleLines` selects what a log at a given level shows.

A `Logged` result is an outcome with the events on the way to it. Steps in sequence list their
events in order; a step that fails is the last one, and the events before it stay.
-/

namespace Componentry

/-- How much an event matters. -/
inductive Level where
  | debug
  | info
  | warning
  | error
  deriving DecidableEq, Repr

namespace Level

/-- Levels in increasing weight. -/
def rank : Level → Nat
  | debug => 0
  | info => 1
  | warning => 2
  | error => 3

/-- The name of a level in a log line. -/
def label : Level → String
  | debug => "DEBUG"
  | info => "INFO"
  | warning => "WARN"
  | error => "ERROR"

end Level

/-- What is worth a log line. -/
inductive Event where
  /-- A descriptor was read, with this many configurations and rules. -/
  | descriptorLoaded (path : Path) (configurations rules : Nat)
  /-- A change made the cached root metadata stale. -/
  | rootInvalidated (kind : MutationKind)
  /-- Cached root metadata was served. -/
  | rootReused (id : ComponentId)
  /-- Cached root metadata was dropped: the project has another identity now. -/
  | rootDiscarded (old new : ComponentId)
  | rootBuilt (id : ComponentId) (configurations : Nat)
  /-- Root metadata was not kept: a change arrived while it was being built. -/
  | rootNotKept (id : ComponentId)
  | moduleReplaced (old new : ModuleId)
  /-- A rule was left out: an input it needs is missing. -/
  | ruleSkipped (rule : String) (component : ModuleVersionId) (input format : String)
  | workspaceAssembled (id : ModuleVersionId) (rules : Nat)
  | configurationResolved (name : String) (components : Nat)
  | componentExcluded (id : ComponentId) (configuration : String)
  /-- A lenient view left an artifact out. -/
  | artifactSkipped (id : ArtifactId) (reason : String)
  | artifactBuilding (id : ArtifactId)
  | transformStarted (id : ArtifactId) (requested : Attributes)
  | transformReused (id : ArtifactId) (requested : Attributes)
  | fileTransformed (input output : Path)

namespace Event

def level : Event → Level
  | artifactSkipped .. => .warning
  | artifactBuilding .. | transformStarted .. => .info
  | _ => .debug

def text : Event → String
  | descriptorLoaded path configurations rules =>
    s!"Loaded {path} with " ++ toString configurations ++ " configuration(s) and " ++
      toString rules ++ " rule(s)"
  | rootInvalidated kind =>
    "Invalidating cached root metadata after " ++ kind.display ++ " mutation"
  | rootReused id => "Reusing cached root metadata for " ++ id.display
  | rootDiscarded old new =>
    "Discarding root metadata for " ++ old.display ++ ": project is now " ++ new.display
  | rootBuilt id configurations =>
    "Built root metadata for " ++ id.display ++ " with " ++ toString configurations ++
      " configuration(s)"
  | rootNotKept id =>
    "Not caching root metadata for " ++ id.display ++ ": invalidated during build"
  | moduleReplaced old new => "Module " ++ old.display ++ " is replaced by " ++ new.display
  | ruleSkipped rule component input format =>
    s!"Skipping rule {rule} for " ++ component.display ++
      s!": {input} is not available for {format} metadata"
  | workspaceAssembled id rules =>
    "Assembled workspace for " ++ id.display ++ " with " ++ toString rules ++ " rule(s)"
  | configurationResolved name components =>
    s!"Resolved {name} to " ++ toString components ++ " component(s)"
  | componentExcluded id configuration =>
    "Component " ++ id.display ++ s!" excluded from view of {configuration}"
  | artifactSkipped id reason => "Skipping " ++ id.display ++ ": " ++ reason
  | artifactBuilding id => "Building " ++ id.display
  | transformStarted id requested =>
    "Transforming " ++ id.display ++ " to " ++ requested.display
  | transformReused id requested =>
    "Reusing transform of " ++ id.display ++ " to " ++ requested.display
  | fileTransformed input output => s!"Transformed {input} into {output}"

/-- The log line of an event. -/
def line (e : Event) : String := e.level.label ++ " " ++ e.text

/-- The log lines of the events that weigh at least `level`. -/
def visibleLines (level : Level) (events : List Event) : List String :=
  (events.filter fun e => level.rank ≤ e.level.rank).map line

end Event

/-! ## Logged results -/

/-- An outcome, and what was logged on the way to it. -/
structure Logged (α : Type) where
  outcome : Except Fault α
  events : List Event := []

namespace Logged

variable {α β : Type}

/-- Go on from a result that is there; a fault ends the way. -/
def andThen (x : Logged α) (f : α → Logged β) : Logged β :=
  match x.outcome with
  | .ok a => ⟨(f a).outcome, x.events ++ (f a).events⟩
  | .error fault => ⟨.error fault, x.events⟩

instance : Monad Logged where
  pure a := ⟨.ok a, []⟩
  bind := andThen

/-- An outcome on whose way nothing was logged. -/
def ofExcept (outcome : Except Fault α) : Logged α := ⟨outcome, []⟩

/-- As `ofExcept`, of an outcome whose faults are classified. -/
def ofClassified (outcome : Except Failure α) : Logged α := ⟨outcome.mapError .failure, []⟩

/-- Log an event. -/
def record (e : Event) : Logged Unit := ⟨.ok (), [e]⟩

@[simp]
theorem outcome_pure (a : α) : (pure a : Logged α).outcome = .ok a := rfl

/-- The outcome of a sequence is that of its steps, whatever they log. -/
@[simp]
theorem outcome_bind (x : Logged α) (f : α → Logged β) :
    (x >>= f).outcome = x.outcome >>= fun a => (f a).outcome := by
  obtain ⟨outcome, events⟩ := x
  cases outcome <;> rfl

end Logged

end Componentry

import Componentry.Log
import Componentry.Root.Metadata

/-!
# Sessions: a project whose root metadata is read while it changes

A session holds the project's identity, the registered projects, the configuration container with
its listeners, and any number of builders that read root metadata. Each builder has one cache slot
of its own.

* `perform` asks the container for a change. A refused change does nothing; an admitted one is
  announced to every listener, in order, before it is carried out (`announce`).
* `notify` tells one builder of a change: a change that affects root metadata empties its slot and
  counts up the slot's generation.
* `read` serves the slot's snapshot if it was made for the project's present component identity.
  Otherwise it builds one, and keeps it only if the generation is still the one from before the
  build: a change that arrives while metadata is built leaves the slot empty.

A snapshot carries the builder that made it and its number among that builder's snapshots, so equal
snapshots are the same one. `step` answers one `Action`, `run` a list of them.
-/

namespace Componentry

/-- A root metadata snapshot, with its identity. -/
structure Snapshot where
  /-- The builder that made it. -/
  builder : Nat
  /-- How many snapshots that builder had made before. -/
  serial : Nat
  metadata : RootMetadata
  deriving DecidableEq

/-- The cache slot of a builder. -/
structure Slot where
  cached : Option Snapshot := none
  /-- How often the slot was invalidated. -/
  generation : Nat := 0
  /-- How many snapshots were built. -/
  built : Nat := 0
  deriving DecidableEq

namespace Slot

/-- Forget the snapshot, and refuse the one being built. -/
def invalidate (s : Slot) : Slot := { s with cached := none, generation := s.generation + 1 }

/-- Forget the snapshot. -/
def clear (s : Slot) : Slot := { s with cached := none }

/-- Count a new snapshot, and keep it if nothing was invalidated since `generation`. -/
def store (s : Slot) (generation : Nat) (snapshot : Snapshot) : Slot :=
  { s with
    cached := if s.generation = generation then some snapshot else s.cached
    built := s.built + 1 }

end Slot

/-- Where a builder takes configurations from: any choice that goes by the session's container. -/
structure Source where
  /-- The configurations that the source holds while the container is as it is. -/
  read : Container → List Configuration

namespace Source

/-- The session's container, as it is when read. -/
def container : Source where
  read c := c.configurations

/-- A list that never changes. -/
def fixed (configurations : List Configuration) : Source where
  read _ := configurations

/-- The configurations of another source whose names are listed, in that source's order. -/
def named (names : List String) (source : Source) : Source where
  read container := (source.read container).filter fun c => names.contains c.name

end Source

/-- How a builder turns configurations into metadata, and what it does to the session first. -/
inductive Work where
  /-- Attach every configuration. -/
  | plain
  /-- Declare a configuration `lazy` if there is none, then attach. -/
  | declareLazy
  /-- Change the project's identity, then attach. -/
  | rename (identity : Coordinates)
  /-- Fail if a configuration has this name, otherwise attach. -/
  | failOn (name : String) (why : Fault)

/-- The metadata that a builder makes of `given`. -/
def Work.attach (m : RootMetadata) (given : List Configuration) : Work → Except Fault RootMetadata
  | failOn name why =>
    if given.any fun c => c.name == name then .error why else .ok (m.attach given)
  | _ => .ok (m.attach given)

/-- Reads root metadata of a session. -/
structure Builder where
  source : Source := .container
  work : Work := .plain
  slot : Slot := {}

/-- Who is told of changes to the container before they happen. -/
inductive Listener where
  /-- Remembers what it hears. -/
  | recorder
  /-- A builder, whose slot a change may empty. -/
  | builder (index : Nat)
  /-- Reads the root metadata of a builder whenever it hears of a change. -/
  | reader (index : Nat)
  deriving DecidableEq, Repr

/-- A project, and everything that reads it. -/
structure Session where
  identity : Coordinates
  projects : Registry := Dict.empty
  container : Container := {}
  listeners : List Listener := []
  builders : List Builder := []
  /-- What the recorders heard, oldest first. -/
  heard : List MutationKind := []
  /-- What was logged, oldest first. -/
  log : List Event := []

namespace Session

/-- Add an event to the log. -/
def record (s : Session) (e : Event) : Session := { s with log := s.log ++ [e] }

/-- The slot of a builder; an absent builder has an empty one. -/
def slot (s : Session) (index : Nat) : Slot := (s.builders[index]?.map (·.slot)).getD {}

/-- Change the slot of a builder. -/
def modifySlot (s : Session) (index : Nat) (f : Slot → Slot) : Session :=
  { s with builders := s.builders.modify index fun b => { b with slot := f b.slot } }

/-- Whether a builder holds a snapshot. -/
def isCached (s : Session) (index : Nat) : Bool := (s.slot index).cached.isSome

/-- Tell a builder of a change. -/
def notify (s : Session) (index : Nat) (kind : MutationKind) : Session :=
  if kind.affectsRoot then (s.modifySlot index Slot.invalidate).record (.rootInvalidated kind)
  else s

/-! ## Reading -/

/-- Build the metadata of a builder anew, `prepare` being what the builder does to the session
before it attaches the configurations it found. -/
def rebuild (prepare : Session → Session) (s : Session) (index : Nat) (b : Builder) :
    Except Fault Snapshot × Session :=
  let generation := (s.slot index).generation
  let given := b.source.read s.container
  let bare := RootMetadata.bare s.identity s.projects
  let s := prepare s
  match b.work.attach bare given with
  | .error fault => (.error fault, s)
  | .ok metadata =>
    let s := s.record (.rootBuilt metadata.componentId given.length)
    let snapshot : Snapshot := ⟨index, (s.slot index).built, metadata⟩
    let kept := (s.slot index).generation = generation
    let s := s.modifySlot index (·.store generation snapshot)
    (.ok snapshot, if kept then s else s.record (.rootNotKept metadata.componentId))

/-- Serve the snapshot of a builder if it was made for the present identity, or build a new one. -/
def readWith (prepare : Session → Session) (s : Session) (index : Nat) :
    Except Fault Snapshot × Session :=
  match s.builders[index]? with
  | none => (.error (.text "no such builder"), s)
  | some b =>
    match b.slot.cached with
    | none => rebuild prepare s index b
    | some snapshot =>
      let present := s.identity.componentId
      if snapshot.metadata.componentId = present then (.ok snapshot, s.record (.rootReused present))
      else
        let s := s.record (.rootDiscarded snapshot.metadata.componentId present)
        rebuild prepare (s.modifySlot index Slot.clear) index b

/-! ## Changing the container -/

/-- Tell a listener of a change. A reader reads without side effects of the builder's work. -/
def tell (kind : MutationKind) (s : Session) : Listener → Session
  | .recorder => { s with heard := s.heard ++ [kind] }
  | .builder index => s.notify index kind
  | .reader index => (s.readWith id index).2

/-- Tell every listener of a change, in order. -/
def announce (s : Session) (kind : MutationKind) : Session := s.listeners.foldl (tell kind) s

/-- Ask the container for a change: refuse it, or announce it and then carry it out. -/
def perform (s : Session) (op : Operation) : Except Failure Unit × Session :=
  match s.container.refusal op with
  | some failure => (.error failure, s)
  | none =>
    let s := s.announce op.kind
    (.ok (), { s with container := s.container.apply op })

/-- What a builder's work does to the session before configurations are attached. -/
def prepare (work : Work) (s : Session) : Session :=
  match work with
  | .declareLazy => if s.container.contains "lazy" then s else (s.perform (.create "lazy")).2
  | .rename identity => { s with identity := identity }
  | _ => s

/-- The work of a builder; an absent builder does plain work. -/
def work (s : Session) (index : Nat) : Work := (s.builders[index]?.map (·.work)).getD .plain

/-- The root metadata of a builder. -/
def read (s : Session) (index : Nat) : Except Fault Snapshot × Session :=
  s.readWith (prepare (s.work index)) index

/-! ## Runs -/

/-- What can happen to a session. -/
inductive Action where
  | perform (op : Operation)
  | setIdentity (identity : Coordinates)
  /-- Tell one builder of a change that no container announced. -/
  | notify (builder : Nat) (kind : MutationKind)
  | read (builder : Nat)
  /-- A new builder that shares the work of another one and takes configurations from `source`. -/
  | derive (builder : Nat) (source : Source)
  /-- Add a builder to the listeners. -/
  | attach (builder : Nat)

/-- What an action answers. -/
inductive Reply where
  | done
  | refused (failure : Failure)
  | snapshot (snapshot : Snapshot)
  | failed (fault : Fault)
  /-- The index of a new builder. -/
  | builder (index : Nat)

/-- Answer one action. -/
def step (s : Session) : Action → Reply × Session
  | .perform op =>
    match s.perform op with
    | (.ok _, s) => (.done, s)
    | (.error failure, s) => (.refused failure, s)
  | .setIdentity identity => (.done, { s with identity := identity })
  | .notify index kind => (.done, s.notify index kind)
  | .read index =>
    match s.read index with
    | (.ok snapshot, s) => (.snapshot snapshot, s)
    | (.error fault, s) => (.failed fault, s)
  | .derive index source =>
    (.builder s.builders.length,
      { s with builders := s.builders ++ [{ source := source, work := s.work index }] })
  | .attach index => (.done, { s with listeners := s.listeners ++ [.builder index] })

/-- Answer a list of actions. -/
def run (s : Session) : List Action → List Reply × Session
  | [] => ([], s)
  | action :: rest =>
    let (reply, next) := s.step action
    let (replies, last) := next.run rest
    (reply :: replies, last)

end Session

end Componentry

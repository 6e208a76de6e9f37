import Componentry.Log
import Componentry.Rule

/-!
# Rule books: registered rules and what they do to a component

A rule book lists rules in the order of their registration, each with an optional predicate on
components. Rules and predicates are compared as instances, by their numbers: registering the same
pair again changes nothing, and a rule that needs an input outside the book's list is refused.

`RuleBook.process` runs the rules over a component in order. A rule's `Turn` is decided on the
component as the rules before it left it: its predicate and its own condition are asked, then its
inputs are looked up, and only with all of them present does its body run. The first body that does
not end well stops everything; otherwise the status is checked against the status scheme at the end.
The trace lists what was asked and what ran.
-/

namespace Componentry

/-- What makes two predicates the same instance. -/
inductive SpecKey where
  /-- A predicate of a caller. -/
  | given (number : Nat)
  /-- The predicate for one module, made anew by every registration for a module. -/
  | forModule (number : Nat)
  deriving DecidableEq, Repr

/-- A predicate on components. -/
structure Spec where
  key : SpecKey
  accepts : ModuleVersionId → Details → Bool

/-- A rule with the number of its instance. -/
structure RuleInstance where
  number : Nat
  rule : Rule

/-- A registered rule. -/
structure Entry where
  spec : Option Spec := none
  action : RuleInstance

namespace Entry

/-- What identifies the registration: its predicate's and its rule's instance. -/
def key (e : Entry) : Option SpecKey × Nat := (e.spec.map (·.key), e.action.number)

/-- What the predicate says of a component; a rule without one is for all. -/
def specAccepts (e : Entry) (c : Component) : Bool :=
  e.spec.all fun spec => spec.accepts c.id c.details

/-- Whether both the predicate and the rule itself accept a component. -/
def accepts (e : Entry) (c : Component) : Bool :=
  e.specAccepts c && e.action.rule.isFor c.id c.details

end Entry

/-! ## Registration -/

/-- Registered rules, and what they may ask for. -/
structure RuleBook where
  entries : List Entry := []
  /-- The inputs that rules may need. -/
  supported : List InputKind := [.ivyDescriptor]
  /-- How many module predicates were made. -/
  modules : Nat := 0

/-- The ways to register a rule. -/
inductive Registration where
  /-- For every component. -/
  | forAll (action : RuleInstance)
  /-- For the components of the module that `text` names. -/
  | forModule (text : String) (action : RuleInstance)
  /-- For the components that a predicate accepts. -/
  | withSpec (spec : Option Spec) (action : RuleInstance)

namespace RuleBook

/-- Add an entry, unless it is there already or needs an unsupported input. -/
def add (b : RuleBook) (e : Entry) : Except Failure Unit × RuleBook :=
  match e.action.rule.unsupported b.supported with
  | some failure => (.error failure, b)
  | none =>
    if b.entries.any fun known => known.key == e.key then (.ok (), b)
    else (.ok (), { b with entries := b.entries ++ [e] })

/-- The predicate that accepts the components of one module. -/
def moduleSpec (b : RuleBook) (module : ModuleId) : Spec where
  key := .forModule b.modules
  accepts id _ := id.toModuleId == module

/-- Register a rule. -/
def register (b : RuleBook) : Registration → Except Failure Unit × RuleBook
  | .forAll action => b.add { action := action }
  | .withSpec spec action => b.add { spec := spec, action := action }
  | .forModule text action =>
    match ModuleId.parse text with
    | .error failure => (.error failure, b)
    | .ok module =>
      ({ b with modules := b.modules + 1 } : RuleBook).add
        { spec := some (b.moduleSpec module), action := action }

/-- What the registered rules are called, in order. -/
def descriptions (b : RuleBook) : List String :=
  b.entries.map fun e => e.action.rule.description

end RuleBook

/-! ## Processing -/

/-- The inputs of the given kinds, or the first kind that the component does not supply. -/
def Component.inputs (c : Component) : List InputKind → Except InputKind (List IvyDescriptor)
  | [] => .ok []
  | kind :: rest =>
    match c.input kind with
    | none => .error kind
    | some found =>
      match c.inputs rest with
      | .ok more => .ok (found :: more)
      | .error missing => .error missing

/-- What a rule's turn comes to. -/
inductive Turn where
  /-- The rule is not for this component. -/
  | rejected
  /-- An input that the rule needs is missing. -/
  | lacking (input : InputKind)
  /-- The body ran. -/
  | ran (inputs : List IvyDescriptor) (outcome : Outcome) (details : Details)

/-- The turn of a rule on a component as it is. -/
def Entry.turn (e : Entry) (c : Component) : Turn :=
  if e.accepts c then
    match c.inputs e.action.rule.inputs with
    | .error missing => .lacking missing
    | .ok inputs =>
      let (outcome, details) := e.action.rule.body c.id inputs c.details
      .ran inputs outcome details
  else .rejected

/-- What is worth remembering of a run over a component. -/
inductive RuleEvent where
  /-- A predicate was asked. -/
  | asked (spec : SpecKey) (component : ModuleVersionId) (accepted : Bool)
  /-- A rule was left out. -/
  | skipped (rule : String) (component : ModuleVersionId) (input : InputKind) (format : String)
  /-- The body of a rule ran. -/
  | ran (rule : Nat) (component : ModuleVersionId) (inputs : List IvyDescriptor)
  deriving DecidableEq

/-- The question to the predicate of an entry, if it has one. -/
def Entry.question (e : Entry) (c : Component) : List RuleEvent :=
  match e.spec with
  | some spec => [.asked spec.key c.id (spec.accepts c.id c.details)]
  | none => []

/-- What a turn adds to the trace, after the question. -/
def Turn.trace (e : Entry) (c : Component) : Turn → List RuleEvent
  | rejected => []
  | lacking input => [.skipped e.action.rule.description c.id input c.format.name]
  | ran inputs _ _ => [.ran e.action.number c.id inputs]

/-- The result of running rules over a component. -/
structure Processed where
  outcome : Except Fault Unit
  /-- The component as the rules left it. -/
  component : Component
  trace : List RuleEvent := []

/-- A result with more events before its own. -/
def Processed.after (events : List RuleEvent) (p : Processed) : Processed :=
  { p with trace := events ++ p.trace }

/-- Run rules over a component in order, then check its status. -/
def processAll : List Entry → Component → Processed
  | [], c =>
    match c.statusFault with
    | some failure => { outcome := .error (.failure failure), component := c }
    | none => { outcome := .ok (), component := c }
  | e :: rest, c =>
    let turn := e.turn c
    Processed.after (e.question c ++ turn.trace e c) <|
      match turn with
      | .ran _ outcome details =>
        match outcome.fault? with
        | some why =>
          { outcome := .error (.failure (.ruleFailed e.action.rule.description c.id.display why))
            component := { c with details := details } }
        | none => processAll rest { c with details := details }
      | _ => processAll rest c

/-- Run the registered rules over a component. -/
def RuleBook.process (b : RuleBook) (c : Component) : Processed := processAll b.entries c

/-- The log events of a trace. -/
def RuleEvent.log? : RuleEvent → Option Event
  | skipped rule component input format => some (.ruleSkipped rule component input.display format)
  | _ => none

end Componentry

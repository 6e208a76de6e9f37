import Componentry.Attributes

/-!
# Failures and the chains that explain them

A `Failure` is one of the ways in which metadata resolution can go wrong, with what identifies the
component, rule or artifact concerned. A `Fault` is what an operation hands to its caller: a
failure, an error of the file system or a plain text, possibly with explanations added on top. The
explanations are texts, or failures used as explanations.

* `Failure.message` and `Fault.links` give the wording: `links` lists the text of every link of a
  chain, outermost first, and a failed rule brings the links of its own cause.
* `Fault.failure?` recovers the classified failure of a chain: the outermost one, looking through
  explanations but not into the cause of a failed rule.
-/

namespace Componentry

/-- The kinds of file-system error that are told apart. -/
inductive SystemKind where
  | notFound
  | permissionDenied
  | other
  deriving DecidableEq, Repr

mutual

/-- The classified ways to fail. -/
inductive Failure where
  /-- After the rules ran, the status of a component is not in its status scheme. -/
  | unexpectedStatus (component status : String) (scheme : List String)
  /-- The body of a metadata rule failed or crashed. -/
  | ruleFailed (rule component : String) (cause : Fault)
  /-- A rule asks for an input that rules cannot have. -/
  | unsupportedInput (rule input : String) (supported : List String)
  /-- A text does not name a module, a module version or a component. -/
  | invalidModule (text reason : String)
  /-- A replacement would make a module replace itself, by way of `cycle`. -/
  | replacementCycle (module target cycle : String)
  /-- A configuration of this name exists already. -/
  | duplicateConfiguration (name : String)
  /-- There is no configuration of this name. -/
  | configurationNotFound (name : String)
  /-- Neither the artifact nor any transformed form of it has the requested attributes. -/
  | noMatchingVariant (component artifact : String) (requested : Attributes)
  /-- The build of an artifact failed. -/
  | buildFailed (artifact reason : String)
  /-- The transform of an artifact failed. -/
  | transformFailed (artifact : String) (requested : Attributes) (reason : String)
  /-- There is no project descriptor at this path. -/
  | descriptorNotFound (path : String)
  /-- The text of a project descriptor is not TOML. -/
  | descriptorMalformed (file : String)
  /-- A project descriptor does not have the form it should have. -/
  | descriptorInvalid (file reason : String)
  /-- Anything else. -/
  | other (message : String)

/-- An error with the explanations that were added to it on the way out. -/
inductive Fault where
  /-- A classified failure. -/
  | failure (failure : Failure)
  /-- An error of the file system. -/
  | system (kind : SystemKind) (text : String)
  /-- An error that is only a text. -/
  | text (message : String)
  /-- A text that explains `cause`. -/
  | noted (note : String) (cause : Fault)
  /-- A failure that explains `cause`. -/
  | under (failure : Failure) (cause : Fault)

end

instance : Inhabited Fault := ⟨.text ""⟩

instance : Coe Failure Fault := ⟨.failure⟩

/-- The text of a failure, without its cause. -/
def Failure.message : Failure → String
  | unexpectedStatus component status scheme =>
    s!"Unexpected status '{status}' specified for {component}. Expected one of: [" ++
      ", ".intercalate scheme ++ "]"
  | ruleFailed rule component _ =>
    s!"Could not apply component metadata rule {rule} to {component}"
  | unsupportedInput rule input supported =>
    s!"Rule {rule} declares unsupported input type '{input}'. Supported input types: [" ++
      ", ".intercalate supported ++ "]"
  | invalidModule text reason => s!"Invalid module notation '{text}': {reason}"
  | replacementCycle module target cycle =>
    s!"Cannot declare module replacement {module} -> {target} because it introduces a cycle: " ++
      cycle
  | duplicateConfiguration name => s!"Configuration '{name}' already exists"
  | configurationNotFound name => s!"Configuration '{name}' not found"
  | noMatchingVariant component artifact requested =>
    s!"No variant of {artifact} from {component} matches the requested attributes " ++
      requested.display
  | buildFailed artifact reason => s!"Failed to build artifact {artifact}: {reason}"
  | transformFailed artifact requested reason =>
    s!"Failed to transform {artifact} to " ++ requested.display ++ ": " ++ reason
  | descriptorNotFound path => s!"Project descriptor not found: {path}"
  | descriptorMalformed file => s!"Invalid project descriptor {file}: the text is not TOML"
  | descriptorInvalid file reason => s!"Invalid project descriptor {file}: {reason}"
  | other message => message

mutual

/-- The texts of a failure and of its causes, outermost first. -/
def Failure.links : Failure → List String
  | .ruleFailed rule component cause =>
    (Failure.ruleFailed rule component cause).message :: cause.links
  | f => [f.message]

/-- The text of every link of the chain, outermost first. -/
def Fault.links : Fault → List String
  | .failure f => f.links
  | .system _ message => [message]
  | .text message => [message]
  | .noted note cause => note :: cause.links
  | .under f cause => f.message :: cause.links

end

namespace Fault

/-- The outermost text. -/
def message : Fault → String
  | failure f => f.message
  | system _ message => message
  | text message => message
  | noted note _ => note
  | under f _ => f.message

/-- The texts below the outermost one. -/
def causes (f : Fault) : List String := f.links.tail

/-- The whole chain on one line. -/
def summary (f : Fault) : String := ": ".intercalate f.links

/-- The outermost classified failure, if there is one. -/
def failure? : Fault → Option Failure
  | failure f => some f
  | under f _ => some f
  | noted _ cause => cause.failure?
  | _ => none

/-- The file-system error that the chain explains, if it explains one. -/
def system? : Fault → Option (SystemKind × String)
  | system kind message => some (kind, message)
  | noted _ cause => cause.system?
  | under _ cause => cause.system?
  | _ => none

/-- A chain of plain texts, outermost first. -/
def ofTexts : List String → Fault
  | [] => text ""
  | [message] => text message
  | note :: rest => noted note (ofTexts rest)

/-- Explain the fault of an outcome by a text, if it has one. -/
def explain {α : Type} (note : String) : Except Fault α → Except Fault α
  | .ok a => .ok a
  | .error f => .error (noted note f)

end Fault

end Componentry

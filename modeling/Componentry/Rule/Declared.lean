import Componentry.Descriptor
import Componentry.Glob
import Componentry.Rule.Edit

/-!
# Declared rules

A rule section of a descriptor says which modules it is for, by a pattern, and what to change. Its
edits are made in a fixed order: scheme, status, ending of the status, status from the branch,
changing flag, attributes. Taking the status from the branch needs the Ivy descriptor, whether the
section asks for it or not.
-/

namespace Componentry.RuleSection

/-- The edits that a section declares. -/
def edits (s : RuleSection) : List Edit :=
  (s.statusScheme.map Edit.setScheme).toList ++
    (s.setStatus.map Edit.setStatus).toList ++
    (s.appendStatus.map Edit.appendStatus).toList ++
    (if s.statusFromBranch then [Edit.statusFromBranch] else []) ++
    (s.changing.map Edit.setChanging).toList ++
    s.attributes.entries.map fun e => Edit.setAttribute e.1 e.2

/-- The inputs that a section needs, each one once. -/
def inputs (s : RuleSection) : List InputKind :=
  (s.requires ++ if s.statusFromBranch then [InputKind.ivyDescriptor] else []).eraseDups

/-- What the rule at position `index` is called; positions are told from one on. -/
def description (s : RuleSection) (index : Nat) : String :=
  match s.module with
  | some pattern => "#" ++ toString (index + 1) ++ s!" for '{pattern}' in cmeta.toml"
  | none => "#" ++ toString (index + 1) ++ " in cmeta.toml"

/-- The rule that a section declares for the modules that `isFor` accepts. -/
def ruleFor (s : RuleSection) (index : Nat) (isFor : ModuleId → Bool) : Rule where
  description := s.description index
  inputs := s.inputs
  isFor id _ := isFor id.toModuleId
  body := Body.ofEdits s.edits

/-- The rule that the section at position `index` declares, if its pattern is one. -/
def rule (s : RuleSection) (index : Nat) : Except Fault Rule :=
  match s.module with
  | none => .ok (s.ruleFor index fun _ => true)
  | some pattern =>
    match Glob.compile pattern with
    | .ok tokens => .ok (s.ruleFor index fun id => Glob.isMatch tokens id.display.toList)
    | .error e =>
      .error (.noted ("Invalid module pattern in rule #" ++ toString (index + 1)) (.text e.display))

end Componentry.RuleSection

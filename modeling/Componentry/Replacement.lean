import Componentry.Identity

/-!
# Module replacements

A declaration `m → t` says that module `t` provides what module `m` did. Each module has at most one
replacement, the last one declared. A declaration that would make a module replace itself, directly
or by way of others, is refused: `Replacements.cycle?` walks from the target along the declared
replacements and reports the way back to the module.
-/

namespace Componentry

/-- What a module is replaced by. -/
structure Replacement where
  target : ModuleId
  reason : Option String := none
  deriving DecidableEq, Repr

/-- The declared replacements, by replaced module. -/
abbrev Replacements := Dict ModuleId Replacement

/-- A request to replace one module by another. -/
structure ReplacementDeclaration where
  module : ModuleId
  replacement : Replacement
  deriving DecidableEq, Repr

/-- Read a declaration: the replaced module is read first. -/
def ReplacementDeclaration.parse (module target : String) (reason : Option String) :
    Except Failure ReplacementDeclaration :=
  match ModuleId.parse module with
  | .error failure => .error failure
  | .ok m =>
    match ModuleId.parse target with
    | .error failure => .error failure
    | .ok t => .ok ⟨m, t, reason⟩

namespace Replacements

/-- The modules from `current` along the replacements up to `goal`, the latter left out; none if the
way ends elsewhere or takes more than `fuel` steps. -/
def walk (r : Replacements) (goal : ModuleId) : Nat → ModuleId → Option (List ModuleId)
  | fuel, current =>
    if current = goal then some []
    else
      match fuel, r.get? current with
      | fuel + 1, some next => (r.walk goal fuel next.target).map (current :: ·)
      | _, _ => none

/-- The cycle that replacing `module` by `target` would close: from `module` to `module`. The
previous replacement of `module` is no part of it. A way without repetition has no more steps than
there are entries. -/
def cycle? (r : Replacements) (module target : ModuleId) : Option (List ModuleId) :=
  (r.walk module r.size target).map fun way => module :: way ++ [module]

/-- Add a declaration, in place of any earlier one for its module. -/
def declare (r : Replacements) (d : ReplacementDeclaration) : Except Failure Replacements :=
  match r.cycle? d.module d.replacement.target with
  | some cycle =>
    .error (.replacementCycle d.module.display d.replacement.target.display
      (" -> ".intercalate (cycle.map ModuleId.display)))
  | none => .ok (Dict.insert r d.module d.replacement)

/-- The replacement of a module. -/
def replacementOf (r : Replacements) (module : ModuleId) : Option Replacement := Dict.get? r module

/-- Whether a module is replaced, or replaces another one. -/
def participates (r : Replacements) (module : ModuleId) : Bool :=
  r.contains module || r.values.any fun replacement => replacement.target == module

end Replacements

end Componentry

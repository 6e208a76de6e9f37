import Componentry.Rule

/-!
# Rules made of edits

An `Edit` is one change to the details of a component. `Edit.runAll` makes a list of edits in order
and stops at the first one that fails, so the edits before it stay made. Edits that take a value
from an extra input do nothing when there is no such value.
-/

namespace Componentry

/-- A change to the details of a component. -/
inductive Edit where
  | setStatus (value : String)
  | appendStatus (ending : String)
  | setScheme (values : List String)
  /-- Add a status at the end of the scheme. -/
  | pushScheme (value : String)
  | setChanging (changing : Bool)
  | toggleChanging
  | setAttribute (key value : String)
  /-- Append to the value of an attribute, an absent one counting as empty. -/
  | appendAttribute (key ending : String)
  /-- Take the status from the first input that has a branch. -/
  | statusFromBranch
  /-- Set an attribute to the status that the first input tells. -/
  | attributeFromStatus (key : String)
  /-- Set an attribute to an extra information of the first input. -/
  | attributeFromExtra (key extra : String)
  /-- Make some edits if the status is `status`. -/
  | whenStatus (status : String) (edits : List Edit)
  | fail (why : Fault)
  | crash (message : Option String)

instance : Inhabited Edit := ⟨.toggleChanging⟩

namespace Edit

/-- Set an attribute, if there is a value for it. -/
def setFrom (key : String) (value : Option String) (d : Details) : Details :=
  match value with
  | some v => { d with attributes := d.attributes.insert key v }
  | none => d

mutual

/-- Make one edit. -/
def run (inputs : List IvyDescriptor) (d : Details) : Edit → Outcome × Details
  | setStatus value => (.done, { d with status := value })
  | appendStatus ending => (.done, { d with status := d.status ++ ending })
  | setScheme values => (.done, { d with scheme := values })
  | pushScheme value => (.done, { d with scheme := d.scheme ++ [value] })
  | setChanging changing => (.done, { d with changing := changing })
  | toggleChanging => (.done, { d with changing := !d.changing })
  | setAttribute key value => (.done, { d with attributes := d.attributes.insert key value })
  | appendAttribute key ending =>
    (.done, { d with attributes :=
      d.attributes.insert key ((d.attributes.get? key).getD "" ++ ending) })
  | statusFromBranch =>
    match inputs.findSome? (·.branch) with
    | some branch => (.done, { d with status := branch })
    | none => (.done, d)
  | attributeFromStatus key => (.done, setFrom key (inputs.head?.map (·.status)) d)
  | attributeFromExtra key extra =>
    (.done, setFrom key (inputs.head?.bind fun input => input.extraInfo.get? extra) d)
  | whenStatus status edits => if d.status = status then runAll inputs d edits else (.done, d)
  | fail why => (.failed why, d)
  | crash message => (.crashed message, d)

/-- Make edits in order, up to the first one that fails. -/
def runAll (inputs : List IvyDescriptor) (d : Details) : List Edit → Outcome × Details
  | [] => (.done, d)
  | edit :: rest =>
    match run inputs d edit with
    | (.done, d) => runAll inputs d rest
    | stopped => stopped

end

end Edit

/-- The body that makes `edits`. -/
def Body.ofEdits (edits : List Edit) : Body := fun _ inputs d => Edit.runAll inputs d edits

/-- A rule called `name` that makes `edits` in every component. -/
def Rule.ofEdits (name : String) (inputs : List InputKind) (edits : List Edit) : Rule where
  description := s!"'{name}'"
  inputs := inputs
  body := Body.ofEdits edits

end Componentry

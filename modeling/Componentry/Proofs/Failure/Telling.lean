import Componentry.Failure.Report
import Componentry.Workspace
import Mathlib.Data.List.Infix

/-!
# What reports tell

A fault is a chain of texts, and its report is meant for somebody who sees nothing else. A chain in
which nothing is recognised is listed as a whole. As soon as there is a classified failure in it, or
a missing or forbidden file at its end, the report is about this part and no other
(`Fault.recognised?`). It tells all of the part, the causes of a failed rule included, but the links
around the part are left out (`Fault.leftOut`): the notes on top of it, and what a failure was put
over.

Results:
* `report_eq_of_recognised`: the report of a fault is the report of the part that is recognised.
* `told_or_leftOut`: each link is told or is among those left out.
* **`report_tells_iff`**: when all links are told, and that a note survives on top of a fault
  exactly if nothing is recognised below it.
* `lock_note_untold`: a note about a descriptor that is not told.
-/

namespace Componentry

/-! ## Texts within texts -/

/-- A text stands somewhere in another one. -/
def Occurs (part whole : String) : Prop := part.toList <:+: whole.toList

instance (part whole : String) : Decidable (Occurs part whole) :=
  inferInstanceAs (Decidable (_ <:+: _))

namespace Occurs

variable {part whole : String}

theorem refl (text : String) : Occurs text text := List.infix_refl text.toList

theorem append_right (h : Occurs part whole) (after : String) : Occurs part (whole ++ after) := by
  unfold Occurs
  rw [String.toList_append]
  exact h.trans (List.infix_append_left ..)

theorem append_left (h : Occurs part whole) (before : String) : Occurs part (before ++ whole) := by
  unfold Occurs
  rw [String.toList_append]
  exact h.trans (List.infix_append_right ..)

/-- Texts that are put together occur in the result. -/
theorem intercalate {texts : List String} (h : part ∈ texts) (separator : String) :
    Occurs part (separator.intercalate texts) := by
  induction texts with
  | nil => exact absurd h List.not_mem_nil
  | cons first rest ih =>
    cases rest with
    | nil =>
      obtain rfl := List.mem_singleton.mp h
      exact String.intercalate_singleton ▸ refl part
    | cons next others =>
      rw [String.intercalate_cons_cons]
      rcases List.mem_cons.mp h with rfl | h
      · exact ((refl part).append_right separator).append_right _
      · exact (ih h).append_left _

theorem length_le (h : Occurs part whole) : part.length ≤ whole.length := by
  rw [← String.length_toList, ← String.length_toList]
  exact List.IsInfix.length_le h

end Occurs

/-- A report tells a text. -/
def Report.Tells (r : Report) (text : String) : Prop := Occurs text r.display

instance (r : Report) (text : String) : Decidable (r.Tells text) :=
  inferInstanceAs (Decidable (Occurs _ _))

namespace Report

variable {r : Report} {text : String}

theorem tells_of_message (h : Occurs text r.failure.message) : r.Tells text :=
  (h.append_right _).append_right _

theorem tells_of_details {details : String} (hdetails : r.details = some details)
    (h : Occurs text details) : r.Tells text := by
  unfold Tells display
  rw [hdetails]
  exact ((h.append_left _).append_left _).append_right _

end Report

/-! ## Recognised parts -/

namespace Fault

/-- The part of a chain that a report is about, if it is about a part: the outermost classified
failure, or else a missing or forbidden file. -/
def recognised? : Fault → Option Fault
  | failure known => some (.failure known)
  | under known _ => some (.failure known)
  | system .other _ => none
  | system kind message => some (.system kind message)
  | text _ => none
  | noted _ cause => cause.recognised?

/-- The links around the part that a report is about. -/
def leftOut : Fault → List String
  | noted note cause => if cause.recognised?.isSome then note :: cause.leftOut else []
  | under _ cause => cause.links
  | _ => []

/-- What is recognised is what is looked for. -/
theorem recognised_cases : ∀ f : Fault,
    (∃ known, f.failure? = some known ∧ f.recognised? = some (.failure known)) ∨
      f.failure? = none ∧
        ((∃ kind text, kind ≠ .other ∧ f.system? = some (kind, text) ∧
            f.recognised? = some (.system kind text)) ∨
          (∀ kind text, f.system? = some (kind, text) → kind = .other) ∧ f.recognised? = none)
  | failure known => .inl ⟨known, rfl, rfl⟩
  | under known _ => .inl ⟨known, rfl, rfl⟩
  | text _ => .inr ⟨rfl, .inr ⟨nofun, rfl⟩⟩
  | noted _ cause => recognised_cases cause
  | system kind message => by
    refine .inr ⟨rfl, ?_⟩
    cases kind with
    | notFound => exact .inl ⟨.notFound, message, by simp, rfl, rfl⟩
    | permissionDenied => exact .inl ⟨.permissionDenied, message, by simp, rfl, rfl⟩
    | other => exact .inr ⟨fun _ _ h => (Prod.mk.inj (Option.some.inj h)).1.symm, rfl⟩

/-- **A report is about the part that is recognised**, and does not look at the rest. -/
theorem report_eq_of_recognised {f part : Fault} (h : f.recognised? = some part) :
    f.report = part.report := by
  rcases f.recognised_cases with ⟨known, hfailure, hpart⟩ |
      ⟨hfailure, ⟨kind, text, hkind, hsystem, hpart⟩ | ⟨-, hnone⟩⟩
  · obtain rfl := Option.some.inj (hpart.symm.trans h)
    unfold report
    rw [hfailure]
    rfl
  · obtain rfl := Option.some.inj (hpart.symm.trans h)
    unfold report
    rw [hfailure, hsystem]
    cases kind with
    | notFound => rfl
    | permissionDenied => rfl
    | other => exact absurd rfl hkind
  · exact absurd (hnone.symm.trans h) (by simp)

/-- A chain in which nothing is recognised is listed. -/
theorem report_eq_listing {f : Fault} (h : f.recognised? = none) :
    f.report = { failure := .other f.listing } := by
  rcases f.recognised_cases with ⟨known, -, hpart⟩ |
      ⟨hfailure, ⟨kind, text, -, -, hpart⟩ | ⟨hother, -⟩⟩
  · exact absurd (h.symm.trans hpart) (by simp)
  · exact absurd (h.symm.trans hpart) (by simp)
  · unfold report
    rw [hfailure]
    cases hsystem : f.system? with
    | none => rfl
    | some found =>
      obtain ⟨kind, text⟩ := found
      obtain rfl := hother kind text hsystem
      rfl

/-- What is recognised is a link by itself, with no notes on it and no cause but its own. -/
theorem recognised_ne {f part : Fault} (h : f.recognised? = some part) (note : String)
    (known : Failure) (cause : Fault) : part ≠ .noted note cause ∧ part ≠ .under known cause := by
  rcases f.recognised_cases with ⟨_, -, hpart⟩ | ⟨-, ⟨_, _, -, -, hpart⟩ | ⟨-, hnone⟩⟩
  · obtain rfl := Option.some.inj (hpart.symm.trans h)
    exact ⟨nofun, nofun⟩
  · obtain rfl := Option.some.inj (hpart.symm.trans h)
    exact ⟨nofun, nofun⟩
  · exact absurd (hnone.symm.trans h) (by simp)

/-! ## What is told -/

theorem links_eq_cons (f : Fault) : f.links = f.message :: f.causes := by
  cases f with
  | failure known => cases known <;> rfl
  | system kind text => rfl
  | text message => rfl
  | noted note cause => rfl
  | under known cause => rfl

theorem occurs_numberedCauses {causes : List String} {text : String} (h : text ∈ causes) (n : Nat) :
    Occurs text (numberedCauses n causes) := by
  induction causes generalizing n with
  | nil => exact absurd h List.not_mem_nil
  | cons cause rest ih =>
    rcases List.mem_cons.mp h with rfl | h
    · exact ((Occurs.refl text).append_left _).append_right _
    · exact (ih h (n + 1)).append_left _

/-- A listing has all links of the chain. -/
theorem occurs_listing {f : Fault} {text : String} (h : text ∈ f.links) :
    Occurs text f.listing := by
  rw [links_eq_cons] at h
  unfold listing
  split
  · rename_i hnone
    rw [hnone] at h
    exact List.mem_singleton.mp h ▸ .refl text
  · rcases List.mem_cons.mp h with rfl | h
    · exact ((Occurs.refl f.message).append_right _).append_right _
    · exact (occurs_numberedCauses h 1).append_left _

end Fault

/-- **A failure is told with all its causes**: those of a failed rule are its details. -/
theorem Failure.report_tells {known : Failure} {text : String} (h : text ∈ known.links) :
    known.report.Tells text := by
  have hmessage : known.report.Tells known.message := Report.tells_of_message (.refl known.message)
  cases known with
  | ruleFailed rule component cause =>
    rcases List.mem_cons.mp h with rfl | h
    · exact hmessage
    · exact Report.tells_of_details rfl (.intercalate h ": ")
  | _ =>
    obtain rfl := List.mem_singleton.mp h
    exact hmessage

namespace Fault

/-- A chain in which nothing is recognised is told as a whole. -/
theorem report_tells_of_none {f : Fault} (hnone : f.recognised? = none) {text : String}
    (h : text ∈ f.links) : f.report.Tells text := by
  rw [report_eq_listing hnone]
  exact Report.tells_of_message (occurs_listing h)

/-- **Each link is told, or is among those left out.** -/
theorem told_or_leftOut : ∀ {f : Fault} {text : String}, text ∈ f.links →
    f.report.Tells text ∨ text ∈ f.leftOut
  | failure known, _, h => .inl (Failure.report_tells h)
  | text message, _, h => .inl (report_tells_of_none rfl h)
  | system kind message, _, h => by
    cases kind with
    | other => exact .inl (report_tells_of_none rfl h)
    | notFound =>
      obtain rfl := List.mem_singleton.mp h
      exact .inl (Report.tells_of_message ((Occurs.refl _).append_left "File not found: "))
    | permissionDenied =>
      obtain rfl := List.mem_singleton.mp h
      exact .inl (Report.tells_of_message ((Occurs.refl _).append_left "Permission denied: "))
  | under known cause, _, h => by
    rcases List.mem_cons.mp h with rfl | h
    · exact .inl (Report.tells_of_message (.refl known.message))
    · exact .inr h
  | noted note cause, _, h => by
    cases hcause : cause.recognised? with
    | none =>
      have hnone : (noted note cause).recognised? = none := hcause
      exact .inl (report_tells_of_none hnone h)
    | some part =>
      have hpart : (noted note cause).recognised? = some part := hcause
      rw [leftOut, hcause, report_eq_of_recognised hpart, ← report_eq_of_recognised hcause]
      rcases List.mem_cons.mp h with rfl | h
      · exact .inr List.mem_cons_self
      · exact (told_or_leftOut h).imp_right (List.mem_cons_of_mem note)

/-- Only links are left out. -/
theorem leftOut_subset : ∀ f : Fault, f.leftOut ⊆ f.links
  | failure _ | text _ | system .. => List.nil_subset _
  | under known cause => List.subset_cons_self known.message cause.links
  | noted note cause => by
    rw [leftOut]
    split
    · exact List.cons_subset_cons note cause.leftOut_subset
    · exact List.nil_subset _

/-- Nothing is left out of a chain in which nothing is recognised, or that is recognised itself. -/
theorem leftOut_eq_nil_iff (f : Fault) :
    f.leftOut = [] ↔ f.recognised? = none ∨ f.recognised? = some f := by
  cases f with
  | failure known => exact iff_of_true rfl (.inr rfl)
  | text message => exact iff_of_true rfl (.inl rfl)
  | system kind message => cases kind <;> simp [leftOut, recognised?]
  | under known cause => simp [leftOut, recognised?, links_eq_cons]
  | noted note cause =>
    rw [leftOut, recognised?]
    cases hcause : cause.recognised? with
    | none => simp
    | some part => simpa using (recognised_ne hcause note (.other "") cause).1

/-- **A note survives on top of a fault if and only if nothing is recognised in it.** -/
theorem note_told_iff (f : Fault) :
    (∀ note, (noted note f).report.Tells note) ↔ f.recognised? = none := by
  constructor
  · intro h
    by_contra hsome
    obtain ⟨part, hpart⟩ := Option.ne_none_iff_exists'.mp hsome
    -- the report is the same under every note, so it cannot tell one that is longer than itself
    have hsame (note : String) : (noted note f).report = part.report :=
      report_eq_of_recognised (f := noted note f) hpart
    have hlength := (h (part.report.display ++ "!")).length_le
    rw [hsame, String.length_append] at hlength
    have hone : "!".length = 1 := rfl
    omega
  · intro hnone note
    exact report_tells_of_none (f := noted note f) hnone List.mem_cons_self

/-- **What a report tells.** The report of a fault in which something is recognised is that of this
part alone. So all links of the chain are told exactly if those around the part happen to be told as
well. There are none around it if and only if nothing is recognised or the part is the whole fault;
a note that is put on top of a fault is told, whatever it says, exactly if nothing is recognised in
the fault. -/
theorem report_tells_iff (f : Fault) :
    (∀ part, f.recognised? = some part → f.report = part.report) ∧
      ((∀ text ∈ f.links, f.report.Tells text) ↔ ∀ text ∈ f.leftOut, f.report.Tells text) ∧
      (f.leftOut = [] ↔ f.recognised? = none ∨ f.recognised? = some f) ∧
      ((∀ note, (noted note f).report.Tells note) ↔ f.recognised? = none) := by
  refine ⟨fun _ => report_eq_of_recognised,
    ⟨fun h text htext => h text (f.leftOut_subset htext), ?_⟩,
    f.leftOut_eq_nil_iff, f.note_told_iff⟩
  intro h text htext
  exact (told_or_leftOut htext).elim id (h text)

end Fault

/-- A project with a locked version that is none. -/
def Descriptor.badlyLocked : Descriptor where
  project := { group := "org.example", name := "app", version := "1.0", path := some ":app" }
  locks := Dict.ofList [("runtime", ["lib"])]

/-- **Which configuration a bad locked version belongs to is not told**, though the chain says
it. -/
theorem Descriptor.lock_note_untold :
    ∃ fault, (Workspace.assemble badlyLocked "/work").outcome = .error fault ∧
      "Invalid lock entry for configuration 'runtime'" ∈ fault.links ∧
      ¬ fault.report.Tells "Invalid lock entry for configuration 'runtime'" :=
  ⟨_, rfl, List.mem_cons_self, by decide⟩

end Componentry

import Componentry.Proofs.Rule.Registration

/-!
# Rules whose inputs are missing

Which inputs there are is up to the format of the component (`Format.supplies`), and no rule changes
the format. So it is known beforehand which rules will find all their inputs (`Entry.suppliedBy`).
The other ones never get as far as their bodies, whatever the rules before them do, and a book
without them (`RuleBook.suppliedBy`) does the same to the component.

Results:
* `Component.input_eq_some_iff`: what an input tells, and of which components.
* `processAll_suppliedBy`: deleting rules that lack an input changes neither the result, nor the
  component, nor the bodies that run.
* **`process_suppliedBy`**: this of every book that calls make, with the inputs that each body is
  given.
-/

namespace Componentry

/-- Whether a component of the format supplies inputs of a kind. -/
def Format.supplies : Format → InputKind → Bool
  | .ivy .., .ivyDescriptor => true
  | _, _ => false

/-- Whether a component of the format supplies everything that the rule needs. -/
def Entry.suppliedBy (f : Format) (e : Entry) : Bool := e.action.rule.inputs.all f.supplies

/-- The book without the rules that need something that the format does not supply. -/
def RuleBook.suppliedBy (b : RuleBook) (f : Format) : RuleBook :=
  { b with entries := b.entries.filter (Entry.suppliedBy f) }

/-- **What an input tells**: branch and extra info of the descriptor, and the status as it is. -/
theorem Component.input_eq_some_iff {c : Component} {kind : InputKind} {found : IvyDescriptor} :
    c.input kind = some found ↔ kind = .ivyDescriptor ∧ ∃ branch extraInfo,
      c.format = .ivy branch extraInfo ∧ found = ⟨extraInfo, branch, c.details.status⟩ := by
  unfold Component.input
  cases kind with
  | pomDescriptor => simp
  | ivyDescriptor => cases c.format <;> simp [eq_comm]

theorem Component.isSome_input (c : Component) (kind : InputKind) :
    (c.input kind).isSome = c.format.supplies kind := by
  unfold Component.input Format.supplies
  cases kind <;> cases c.format <;> rfl

/-! ## One rule -/

namespace Entry

variable {e : Entry} {c c' : Component}

/-- Rules leave the format as it is. -/
theorem Passes.format_eq (h : e.Passes c c') : c'.format = c.format := by
  cases h <;> rfl

/-- A rule that applies is given one input for each that it asks for, in order. -/
theorem AppliesTo.given {given : List IvyDescriptor} (h : e.AppliesTo c given) :
    List.Forall₂ (fun kind found => kind = InputKind.ivyDescriptor ∧ ∃ branch extraInfo,
      c.format = .ivy branch extraInfo ∧ found = ⟨extraInfo, branch, c.details.status⟩)
      e.action.rule.inputs given :=
  h.inputs.imp fun _ _ => Component.input_eq_some_iff.mp

/-- A rule applies only if the format supplies everything it needs. -/
theorem AppliesTo.suppliedBy {given : List IvyDescriptor} (h : e.AppliesTo c given) :
    e.suppliedBy c.format = true := by
  obtain ⟨-, -, hinputs⟩ := h
  unfold Entry.suppliedBy
  generalize e.action.rule.inputs = kinds at hinputs ⊢
  induction hinputs with
  | nil => rfl
  | cons hfound _ ih =>
    rw [List.all_cons, ih, ← c.isSome_input, hfound]
    rfl

/-- A rule that lacks an input is passed without a change. -/
theorem passes_of_not_suppliedBy (h : e.suppliedBy c.format = false) : e.Passes c c := by
  refine .idle fun given happlies => ?_
  rw [happlies.suppliedBy] at h
  exact absurd h (by simp)

theorem execution?_of_not_suppliedBy (h : e.suppliedBy c.format = false) :
    e.execution? c = none := by
  refine execution?_of_not_appliesTo fun given happlies => ?_
  rw [happlies.suppliedBy] at h
  exact absurd h (by simp)

end Entry

/-! ## The run -/

theorem Passed.format_eq {before : List Entry} {c c' : Component} {events : List RuleEvent}
    (h : Passed before c events c') : c'.format = c.format := by
  induction h with
  | nil => rfl
  | cons hpasses _ ih => rw [ih, hpasses.format_eq]

/-- **Rules that lack an input make no difference**, wherever they stand. -/
theorem processAll_suppliedBy (entries : List Entry) (c : Component) :
    (processAll (entries.filter (Entry.suppliedBy c.format)) c).outcome =
        (processAll entries c).outcome ∧
      (processAll (entries.filter (Entry.suppliedBy c.format)) c).component =
        (processAll entries c).component ∧
      executions (entries.filter (Entry.suppliedBy c.format)) c = executions entries c := by
  induction entries generalizing c with
  | nil => exact ⟨rfl, rfl, rfl⟩
  | cons e rest ih =>
    by_cases hsupplied : e.suppliedBy c.format = true
    · rw [List.filter_cons_of_pos hsupplied]
      rcases e.passes_or_stops c with ⟨c', h⟩ | ⟨why, c', h⟩
      · obtain ⟨houtcome, hcomponent, hexecutions⟩ := ih c'
        rw [h.format_eq] at houtcome hcomponent hexecutions
        rw [h.processAll, h.processAll, h.executions, h.executions, hexecutions]
        exact ⟨houtcome, hcomponent, rfl⟩
      · rw [h.processAll, h.processAll, h.executions, h.executions]
        exact ⟨rfl, rfl, rfl⟩
    · have hlacking := Bool.eq_false_iff.mpr hsupplied
      have h := Entry.passes_of_not_suppliedBy hlacking
      obtain ⟨houtcome, hcomponent, hexecutions⟩ := ih c
      rw [List.filter_cons_of_neg hsupplied, h.processAll, h.executions,
        Entry.execution?_of_not_suppliedBy hlacking]
      exact ⟨houtcome, hcomponent, hexecutions⟩

/-! ## Rule books -/

namespace RuleBook

variable {b : RuleBook}

/-- An Ivy descriptor supplies all that rules can ask for in a book that supports nothing else. -/
theorem Tidy.suppliedBy_ivy (h : b.Tidy) (hsupported : b.supported = [.ivyDescriptor])
    (branch : Option String) (extraInfo : Dict String String) :
    (b.suppliedBy (.ivy branch extraInfo)).entries = b.entries := by
  refine List.filter_eq_self.mpr fun e he => List.all_eq_true.mpr fun kind hkind => ?_
  have hmem := h.supports e he kind hkind
  rw [hsupported, List.mem_singleton] at hmem
  rw [hmem]
  rfl

/-- Other formats supply nothing, so that rules without inputs are left. -/
theorem suppliedBy_other {f : Format} (h : ∀ kind, f.supplies kind = false) :
    (b.suppliedBy f).entries = b.entries.filter fun e => e.action.rule.inputs.isEmpty := by
  refine List.filter_congr fun e _ => ?_
  unfold Entry.suppliedBy
  cases e.action.rule.inputs with
  | nil => rfl
  | cons kind rest =>
    rw [List.all_cons, h]
    rfl

/-- **A rule that lacks an input is as good as not registered.** In every book that calls make out
of a new one, processing comes to the same result, the same component and the same runs of bodies
without the rules that need an input which the format does not supply. With an Ivy descriptor there
are no such rules; otherwise they are those that need any input at all. A body runs on the component
as the rules before it left it. It is given one input for each that its rule names, in that order,
with the branch and the extra info that the component came with, and its status as it is then. -/
theorem process_suppliedBy (calls : List Registration) (c : Component) :
    let b := registered {} calls
    ((b.suppliedBy c.format).process c).outcome = (b.process c).outcome ∧
    ((b.suppliedBy c.format).process c).component = (b.process c).component ∧
    ((b.suppliedBy c.format).process c).trace.filter RuleEvent.isRun =
      (b.process c).trace.filter RuleEvent.isRun ∧
    executions (b.suppliedBy c.format).entries c = executions b.entries c ∧
    (b.process c).trace.filter RuleEvent.isRun = (executions b.entries c).map Execution.event ∧
    (match c.format with
      | .ivy .. => (b.suppliedBy c.format).entries = b.entries
      | _ => (b.suppliedBy c.format).entries =
          b.entries.filter fun e => e.action.rule.inputs.isEmpty) ∧
    ∀ x ∈ executions b.entries c,
      (∃ before after events, b.entries = before ++ x.entry :: after ∧
        Passed before c events x.component) ∧
      x.entry.turn x.component =
        .ran x.given (x.entry.action.rule.body c.id x.given x.component.details).1
          (x.entry.action.rule.body c.id x.given x.component.details).2 ∧
      List.Forall₂ (fun kind found => kind = InputKind.ivyDescriptor ∧
        ∃ branch extraInfo, c.format = .ivy branch extraInfo ∧
          found = ⟨extraInfo, branch, x.component.details.status⟩)
        x.entry.action.rule.inputs x.given := by
  intro b
  obtain ⟨houtcome, hcomponent, hexecutions⟩ := processAll_suppliedBy b.entries c
  have htrace := trace_executions b.entries c
  refine ⟨houtcome, hcomponent, ?_, hexecutions, htrace, ?_, fun x hx => ?_⟩
  · have hsupplied := trace_executions (b.suppliedBy c.format).entries c
    rw [process, process, htrace, hsupplied]
    exact congrArg (List.map Execution.event) hexecutions
  · have hsupported : b.supported = [.ivyDescriptor] := supported_registered {} calls
    cases c.format with
    | ivy branch extraInfo =>
      exact (tidy_new.registered calls).suppliedBy_ivy hsupported branch extraInfo
    | maven packaging => exact suppliedBy_other fun _ => rfl
    | gradle => exact suppliedBy_other fun _ => rfl
  · obtain ⟨before, after, events, hentries, hpassed, happlies⟩ := passed_of_mem_executions hx
    refine ⟨⟨before, after, events, hentries, hpassed⟩, ?_, ?_⟩
    · rw [← hpassed.id_eq]
      exact Entry.turn_of_appliesTo happlies
    · rw [← hpassed.format_eq]
      exact happlies.given

end RuleBook

end Componentry

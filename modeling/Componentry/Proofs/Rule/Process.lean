import Mathlib.Data.List.Forall2
import Componentry.Rule.Book

/-!
# What rules do to a component

A rule applies to a component as it is (`Entry.AppliesTo`) if its predicate, if it has one, and its
own condition accept it and the component supplies every input the rule asks for. A rule that does
not apply is passed without a change, and so is one whose body ends well, with the changes of the
body (`Entry.Passes`). A rule whose body fails or crashes stops the run (`Entry.Stops`). `Passed` is
a run past a list of rules, each of them looking at what the rules before it left.

The relations speak of predicates, inputs and bodies only, not of turns; the list of events that
goes with them is what the trace should have. The results here are that processing is what they
describe:

* `passes_or_stops`: a rule either is passed or stops the run.
* `processAll_append`, `processAll_of_stops`: a run goes on past the rules that are passed, and ends
  with the first one that is not.
* **`process_correct`**: what comes of a rule book on a component, in each of the three cases there
  are.
-/

namespace Componentry

namespace Entry

/-- The rule applies to the component as it is, and is given the inputs `given`. -/
structure AppliesTo (e : Entry) (c : Component) (given : List IvyDescriptor) : Prop where
  spec : ∀ spec, e.spec = some spec → spec.accepts c.id c.details = true
  isFor : e.action.rule.isFor c.id c.details = true
  inputs : List.Forall₂ (fun kind found => c.input kind = some found) e.action.rule.inputs given

/-- The run goes on after the rule, with the component `c'`. -/
inductive Passes (e : Entry) (c : Component) : Component → Prop where
  | idle : (∀ given, ¬ e.AppliesTo c given) → e.Passes c c
  | edits {given : List IvyDescriptor} {details : Details} : e.AppliesTo c given →
      e.action.rule.body c.id given c.details = (.done, details) →
      e.Passes c { c with details := details }

/-- The rule ends the run because of `why`, and leaves the component `c'`. -/
inductive Stops (e : Entry) (c : Component) : Fault → Component → Prop where
  | fails {given : List IvyDescriptor} {why : Fault} {details : Details} : e.AppliesTo c given →
      e.action.rule.body c.id given c.details = (.failed why, details) →
      e.Stops c why { c with details := details }
  | crashes {given : List IvyDescriptor} {message : Option String} {details : Details} :
      e.AppliesTo c given →
      e.action.rule.body c.id given c.details = (.crashed message, details) →
      e.Stops c (.text ("rule panicked: " ++ message.getD "unknown panic"))
        { c with details := details }

/-- What the trace has of the rule's turn. -/
def events (e : Entry) (c : Component) : List RuleEvent := e.question c ++ (e.turn c).trace e c

end Entry

/-- **The rules are passed one after the other**, each on the component as those before it left it;
the list has what the trace has of their turns. -/
inductive Passed : List Entry → Component → List RuleEvent → Component → Prop where
  | nil {c : Component} : Passed [] c [] c
  | cons {e : Entry} {rest : List Entry} {c c' c'' : Component} {more : List RuleEvent} :
      e.Passes c c' → Passed rest c' more c'' → Passed (e :: rest) c (e.events c ++ more) c''

/-! ## The turn of one rule -/

/-- The inputs are looked up one by one, and all of them have to be there. -/
theorem Component.inputs_eq_ok_iff {c : Component} {kinds : List InputKind}
    {given : List IvyDescriptor} :
    c.inputs kinds = .ok given ↔
      List.Forall₂ (fun kind found => c.input kind = some found) kinds given := by
  induction kinds generalizing given with
  | nil =>
    rw [Component.inputs, List.forall₂_nil_left_iff, Except.ok.injEq]
    exact eq_comm
  | cons kind rest ih =>
    rw [Component.inputs]
    constructor
    · intro h
      split at h
      · cases h
      · rename_i found hfound
        split at h
        · rename_i more hmore
          cases h
          exact .cons hfound (ih.mp hmore)
        · cases h
    · intro h
      cases h with
      | cons hfound hrest => simp only [hfound, ih.mpr hrest]

namespace Entry

variable {e : Entry} {c c' : Component}

theorem accepts_iff : e.accepts c = true ↔
    (∀ spec, e.spec = some spec → spec.accepts c.id c.details = true) ∧
      e.action.rule.isFor c.id c.details = true := by
  unfold accepts specAccepts
  cases e.spec <;> simp

/-- The body runs if and only if the rule applies. -/
theorem appliesTo_iff {given : List IvyDescriptor} :
    e.AppliesTo c given ↔ e.accepts c = true ∧ c.inputs e.action.rule.inputs = .ok given := by
  rw [accepts_iff, Component.inputs_eq_ok_iff]
  constructor
  · intro h
    exact ⟨⟨h.spec, h.isFor⟩, h.inputs⟩
  · rintro ⟨⟨hspec, hisFor⟩, hinputs⟩
    exact ⟨hspec, hisFor, hinputs⟩

theorem turn_of_appliesTo {given : List IvyDescriptor} (h : e.AppliesTo c given) :
    e.turn c = .ran given (e.action.rule.body c.id given c.details).1
      (e.action.rule.body c.id given c.details).2 := by
  obtain ⟨haccepts, hinputs⟩ := appliesTo_iff.mp h
  unfold turn
  rw [if_pos haccepts, hinputs]

/-- A rule that does not apply does not run. -/
theorem turn_of_not_appliesTo (h : ∀ given, ¬ e.AppliesTo c given) :
    e.turn c = .rejected ∨ ∃ missing, e.turn c = .lacking missing := by
  unfold turn
  by_cases haccepts : e.accepts c = true
  · rw [if_pos haccepts]
    cases hinputs : c.inputs e.action.rule.inputs with
    | error missing => exact .inr ⟨missing, rfl⟩
    | ok given => exact absurd (appliesTo_iff.mpr ⟨haccepts, hinputs⟩) (h given)
  · rw [if_neg haccepts]
    exact .inl rfl

/-- **A rule either is passed or stops the run.** -/
theorem passes_or_stops (e : Entry) (c : Component) :
    (∃ c', e.Passes c c') ∨ ∃ why c', e.Stops c why c' := by
  by_cases h : ∃ given, e.AppliesTo c given
  · obtain ⟨given, happlies⟩ := h
    rcases hbody : e.action.rule.body c.id given c.details with ⟨outcome, details⟩
    cases outcome with
    | done => exact .inl ⟨_, .edits happlies hbody⟩
    | failed why => exact .inr ⟨_, _, .fails happlies hbody⟩
    | crashed message => exact .inr ⟨_, _, .crashes happlies hbody⟩
  · exact .inl ⟨c, .idle (not_exists.mp h)⟩

/-- Rules do not touch what identifies a component. -/
theorem Passes.id_eq (h : e.Passes c c') : c'.id = c.id := by
  cases h <;> rfl

/-- A rule that is passed leaves the rest of the run to the rules after it. -/
theorem Passes.processAll (h : e.Passes c c') (rest : List Entry) :
    processAll (e :: rest) c = (Componentry.processAll rest c').after (e.events c) := by
  rw [Componentry.processAll, events]
  cases h with
  | idle h =>
    rcases turn_of_not_appliesTo h with hturn | ⟨missing, hturn⟩
    · rw [hturn]
    · rw [hturn]
  | edits happlies hbody =>
    rw [turn_of_appliesTo happlies, hbody]
    rfl

/-- A rule that stops the run is the last one to have a turn. -/
theorem Stops.processAll {why : Fault} (h : e.Stops c why c') (rest : List Entry) :
    processAll (e :: rest) c =
      { outcome := .error (.failure (.ruleFailed e.action.rule.description c.id.display why))
        component := c'
        trace := e.events c } := by
  rw [Componentry.processAll, events]
  cases h with
  | fails happlies hbody =>
    rw [turn_of_appliesTo happlies, hbody]
    simp [Outcome.fault?, Processed.after]
  | crashes happlies hbody =>
    rw [turn_of_appliesTo happlies, hbody]
    simp [Outcome.fault?, Processed.after]

end Entry

/-! ## The run -/

theorem Processed.after_after (p : Processed) (events more : List RuleEvent) :
    (p.after more).after events = p.after (events ++ more) := by
  simp [Processed.after]

section

variable {before : List Entry} {c c' : Component} {events : List RuleEvent}

theorem Passed.id_eq (h : Passed before c events c') : c'.id = c.id := by
  induction h with
  | nil => rfl
  | cons hpasses _ ih => rw [ih, hpasses.id_eq]

/-- **A run goes on past the rules that are passed**, whatever comes after them. -/
theorem processAll_append (h : Passed before c events c') (after : List Entry) :
    processAll (before ++ after) c = (processAll after c').after events := by
  induction h with
  | nil => simp [Processed.after]
  | cons hpasses _ ih =>
    rw [List.cons_append, hpasses.processAll, ih, Processed.after_after]

/-- The first rule that stops the run settles what comes of it. -/
theorem processAll_of_stops (h : Passed before c events c') {e : Entry} {why : Fault}
    {c'' : Component} (hstops : e.Stops c' why c'') (after : List Entry) :
    processAll (before ++ e :: after) c =
      { outcome := .error (.failure (.ruleFailed e.action.rule.description c.id.display why))
        component := c''
        trace := events ++ e.events c' } := by
  rw [processAll_append h, hstops.processAll, h.id_eq]
  rfl

/-- If all rules are passed, the status decides. -/
theorem processAll_of_passed (h : Passed before c events c') :
    processAll before c =
      { outcome :=
          if c'.details.status ∈ c'.details.scheme then .ok ()
          else .error (.failure
            (.unexpectedStatus c.id.display c'.details.status c'.details.scheme))
        component := c'
        trace := events } := by
  have hrun := processAll_append h []
  rw [List.append_nil] at hrun
  rw [hrun, processAll, Component.statusFault]
  by_cases hstatus : c'.details.status ∈ c'.details.scheme
  · simp [hstatus, Processed.after]
  · simp [hstatus, Processed.after, h.id_eq]

/-- **Either all rules are passed, or there is a first one that is not.** -/
theorem passed_or_stopped (entries : List Entry) (c : Component) :
    (∃ events c', Passed entries c events c') ∨
      ∃ before e after events c₁ why c₂, entries = before ++ e :: after ∧
        Passed before c events c₁ ∧ e.Stops c₁ why c₂ := by
  induction entries generalizing c with
  | nil => exact .inl ⟨[], c, .nil⟩
  | cons e rest ih =>
    rcases e.passes_or_stops c with ⟨c', hpasses⟩ | ⟨why, c', hstops⟩
    · rcases ih c' with
        ⟨more, c'', hpassed⟩ | ⟨before, e', after, more, c₁, why, c₂, rfl, hpassed, hstops⟩
      · exact .inl ⟨_, c'', .cons hpasses hpassed⟩
      · exact .inr ⟨e :: before, e', after, _, c₁, why, c₂, rfl, .cons hpasses hpassed, hstops⟩
    · exact .inr ⟨[], e, rest, [], c, why, c', rfl, .nil, hstops⟩

end

/-! ## Rule books -/

/-- Registering adds at the end, if it adds anything: rules are in the order of their
registration. -/
theorem RuleBook.entries_prefix_register (b : RuleBook) (r : Registration) :
    b.entries <+: (b.register r).2.entries := by
  have hadd : ∀ (b : RuleBook) (e : Entry), b.entries <+: (b.add e).2.entries := by
    intro b e
    unfold RuleBook.add
    split
    · exact List.prefix_refl _
    · split
      · exact List.prefix_refl _
      · exact List.prefix_append _ _
  cases r with
  | forAll action => exact hadd b _
  | withSpec spec action => exact hadd b _
  | forModule text action =>
    rw [RuleBook.register]
    split
    · exact List.prefix_refl _
    · exact hadd { b with modules := b.modules + 1 } _

/-- **What comes of a rule book on a component.** Rules have their turns in the order of their
registration, each on the component as the rules before it left it. There are three cases, and no
others:
* the first rule whose body fails or crashes ends the run: the failure names this rule and the
  component, it is the classified failure of the outcome whatever the cause is, and the cause is
  kept; the component has the changes made so far, and it makes no difference what rules come after;
* all rules are passed and the status is not in the scheme, both as the rules left them;
* all rules are passed and it is: then, and only then, processing succeeds. -/
theorem RuleBook.process_correct (b : RuleBook) (c : Component) :
    (∀ r, b.entries <+: (b.register r).2.entries) ∧
    ((b.process c).outcome = .ok () ↔
      ∃ events c', Passed b.entries c events c' ∧ c'.details.status ∈ c'.details.scheme) ∧
    (∀ before e after events c₁ why c₂, b.entries = before ++ e :: after →
      Passed before c events c₁ → e.Stops c₁ why c₂ →
      ∃ fault, (b.process c).outcome = .error fault ∧
        fault.failure? = some (.ruleFailed e.action.rule.description c.id.display why) ∧
        fault.causes = why.links ∧
        (b.process c).component = c₂ ∧
        (b.process c).trace = events ++ e.events c₁ ∧
        ∀ later, ({ b with entries := before ++ e :: later } : RuleBook).process c = b.process c) ∧
    (∀ events c', Passed b.entries c events c' →
      (b.process c).component = c' ∧ (b.process c).trace = events ∧
        (c'.details.status ∉ c'.details.scheme → (b.process c).outcome =
          .error (.failure (.unexpectedStatus c.id.display c'.details.status c'.details.scheme)))) ∧
    ((∃ events c', Passed b.entries c events c') ∨
      ∃ before e after events c₁ why c₂, b.entries = before ++ e :: after ∧
        Passed before c events c₁ ∧ e.Stops c₁ why c₂) := by
  unfold RuleBook.process
  refine ⟨b.entries_prefix_register, ⟨fun hok => ?_, ?_⟩, ?_, ?_, passed_or_stopped _ c⟩
  · rcases passed_or_stopped b.entries c with ⟨events, c', hpassed⟩ |
      ⟨before, e, after, events, c₁, why, c₂, hentries, hpassed, hstops⟩
    · refine ⟨events, c', hpassed, ?_⟩
      by_contra hstatus
      rw [processAll_of_passed hpassed, if_neg hstatus] at hok
      exact absurd hok (by simp)
    · rw [hentries, processAll_of_stops hpassed hstops] at hok
      exact absurd hok (by simp)
  · rintro ⟨events, c', hpassed, hstatus⟩
    rw [processAll_of_passed hpassed, if_pos hstatus]
  · intro before e after events c₁ why c₂ hentries hpassed hstops
    rw [hentries, processAll_of_stops hpassed hstops]
    exact ⟨_, rfl, rfl, by simp [Fault.causes, Fault.links, Failure.links], rfl, rfl,
      fun later => processAll_of_stops hpassed hstops later⟩
  · intro events c' hpassed
    rw [processAll_of_passed hpassed]
    exact ⟨rfl, rfl, fun hstatus => if_neg hstatus⟩

end Componentry

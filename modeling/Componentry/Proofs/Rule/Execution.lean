import Componentry.Proofs.Rule.Process

/-!
# Which bodies run

Of a run over a component, `executions` keeps the bodies only: which entry's body ran, what the
component was then, and which inputs the body was given. After each turn the run goes on with a
component or is over (`Turn.onward?`), so the recursion is that of processing.

Results:
* `trace_executions`: the trace of processing has these runs of bodies and no others, in this order.
* `sublist_executions`: they are in the order of the entries, and no entry has two of them.
* `passed_of_mem_executions`: each body runs on the component as the rules before it left it, and
  only because its rule applies.
-/

namespace Componentry

/-- A body that ran. -/
structure Execution where
  entry : Entry
  /-- The component as it was when the body ran. -/
  component : Component
  /-- The inputs that the body was given. -/
  given : List IvyDescriptor

/-- What the trace has of it. -/
def Execution.event (x : Execution) : RuleEvent :=
  .ran x.entry.action.number x.component.id x.given

/-- Whether an event is the run of a body. -/
def RuleEvent.isRun : RuleEvent → Bool
  | ran .. => true
  | _ => false

/-- The component with which the run goes on after a turn, unless it is over. -/
def Turn.onward? (c : Component) : Turn → Option Component
  | ran _ outcome details =>
    match outcome.fault? with
    | some _ => none
    | none => some { c with details := details }
  | _ => some c

/-- The run of the body in an entry's turn, if there is one. -/
def Entry.execution? (e : Entry) (c : Component) : Option Execution :=
  match e.turn c with
  | .ran given _ _ => some ⟨e, c, given⟩
  | _ => none

/-- **The bodies that run over a component**, in order. -/
def executions : List Entry → Component → List Execution
  | [], _ => []
  | e :: rest, c =>
    (e.execution? c).toList ++
      match (e.turn c).onward? c with
      | some c' => executions rest c'
      | none => []

/-! ## One turn -/

namespace Entry

variable {e : Entry} {c c' : Component}

theorem execution?_of_appliesTo {given : List IvyDescriptor} (h : e.AppliesTo c given) :
    e.execution? c = some ⟨e, c, given⟩ := by
  unfold execution?
  rw [turn_of_appliesTo h]

theorem execution?_of_not_appliesTo (h : ∀ given, ¬ e.AppliesTo c given) :
    e.execution? c = none := by
  unfold execution?
  rcases turn_of_not_appliesTo h with hturn | ⟨missing, hturn⟩
  · rw [hturn]
  · rw [hturn]

/-- **A body runs if and only if its rule applies**, with the inputs that the rule asks for. -/
theorem execution?_eq_some_iff {x : Execution} :
    e.execution? c = some x ↔ e.AppliesTo c x.given ∧ x = ⟨e, c, x.given⟩ := by
  constructor
  · intro h
    by_cases happlies : ∃ given, e.AppliesTo c given
    · obtain ⟨given, hgiven⟩ := happlies
      rw [execution?_of_appliesTo hgiven] at h
      obtain rfl := Option.some.inj h
      exact ⟨hgiven, rfl⟩
    · rw [execution?_of_not_appliesTo (not_exists.mp happlies)] at h
      exact absurd h (by simp)
  · rintro ⟨happlies, hx⟩
    rw [hx]
    exact execution?_of_appliesTo happlies

/-- Of an entry's events, the run of its body is the one that is such a run. -/
theorem filter_events (e : Entry) (c : Component) :
    (e.events c).filter RuleEvent.isRun = (e.execution? c).toList.map Execution.event := by
  unfold events question execution?
  cases e.spec <;> cases e.turn c <;> simp [Turn.trace, RuleEvent.isRun, Execution.event]

theorem Passes.onward? (h : e.Passes c c') : (e.turn c).onward? c = some c' := by
  cases h with
  | idle h =>
    rcases turn_of_not_appliesTo h with hturn | ⟨missing, hturn⟩
    · rw [hturn, Turn.onward?]
      simp
    · rw [hturn, Turn.onward?]
      simp
  | edits happlies hbody =>
    rw [turn_of_appliesTo happlies, hbody]
    rfl

theorem Stops.onward? {why : Fault} (h : e.Stops c why c') : (e.turn c).onward? c = none := by
  cases h with
  | fails happlies hbody =>
    rw [turn_of_appliesTo happlies, hbody]
    rfl
  | crashes happlies hbody =>
    rw [turn_of_appliesTo happlies, hbody]
    rfl

theorem Passes.executions (h : e.Passes c c') (rest : List Entry) :
    executions (e :: rest) c = (e.execution? c).toList ++ Componentry.executions rest c' := by
  rw [Componentry.executions, h.onward?]

theorem Stops.executions {why : Fault} (h : e.Stops c why c') (rest : List Entry) :
    executions (e :: rest) c = (e.execution? c).toList := by
  rw [Componentry.executions, h.onward?, List.append_nil]

end Entry

/-! ## The run -/

/-- **The trace tells of the bodies that run**, in their order. -/
theorem trace_executions (entries : List Entry) (c : Component) :
    (processAll entries c).trace.filter RuleEvent.isRun =
      (executions entries c).map Execution.event := by
  induction entries generalizing c with
  | nil =>
    rw [processAll]
    split <;> rfl
  | cons e rest ih =>
    rcases e.passes_or_stops c with ⟨c', h⟩ | ⟨why, c', h⟩
    · rw [h.processAll, h.executions, Processed.after, List.filter_append, ih, e.filter_events,
        List.map_append]
    · rw [h.processAll, h.executions, e.filter_events]

/-- **No entry's body runs twice**, and bodies run in the order of the entries. -/
theorem sublist_executions (entries : List Entry) (c : Component) :
    ((executions entries c).map (·.entry)).Sublist entries := by
  have hown : ∀ (e : Entry) (c : Component),
      ((e.execution? c).toList.map (·.entry)).Sublist [e] := by
    intro e c
    unfold Entry.execution?
    cases e.turn c <;> simp
  induction entries generalizing c with
  | nil => exact List.nil_sublist _
  | cons e rest ih =>
    rcases e.passes_or_stops c with ⟨c', h⟩ | ⟨why, c', h⟩
    · rw [h.executions, List.map_append]
      exact (hown e c).append (ih c')
    · rw [h.executions]
      exact (hown e c).trans (List.singleton_sublist.mpr List.mem_cons_self)

/-- **Each body runs on the component as the rules before it left it**, because its rule applies. -/
theorem passed_of_mem_executions {entries : List Entry} {c : Component} {x : Execution}
    (hx : x ∈ executions entries c) :
    ∃ before after events, entries = before ++ x.entry :: after ∧
      Passed before c events x.component ∧ x.entry.AppliesTo x.component x.given := by
  have hown : ∀ (e : Entry) (rest : List Entry) (c : Component), x ∈ (e.execution? c).toList →
      ∃ before after events, e :: rest = before ++ x.entry :: after ∧
        Passed before c events x.component ∧ x.entry.AppliesTo x.component x.given := by
    intro e rest c hmem
    obtain ⟨happlies, heq⟩ := Entry.execution?_eq_some_iff.mp (Option.mem_toList.mp hmem)
    rw [heq]
    exact ⟨[], rest, [], rfl, .nil, happlies⟩
  induction entries generalizing c with
  | nil => exact absurd hx List.not_mem_nil
  | cons e rest ih =>
    rcases e.passes_or_stops c with ⟨c', h⟩ | ⟨why, c', h⟩
    · rw [h.executions] at hx
      rcases List.mem_append.mp hx with hx | hx
      · exact hown e rest c hx
      · obtain ⟨before, after, events, rfl, hpassed, happlies⟩ := ih hx
        exact ⟨e :: before, after, _, rfl, .cons h hpassed, happlies⟩
    · rw [h.executions] at hx
      exact hown e rest c hx

end Componentry

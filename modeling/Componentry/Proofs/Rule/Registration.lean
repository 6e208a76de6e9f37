import Mathlib.Data.List.Nodup
import Componentry.Proofs.Identity.Notation
import Componentry.Proofs.Rule.Execution

/-!
# Registration keeps a validated list without repetitions

A call to a rule book either cannot be read (`Registration.fault?`: only calls for a module have a
text to read) or offers an entry (`RuleBook.offer`), which is refused if its rule needs an input
that the book does not support. `RuleBook.accepted` lists the offers of a run of calls that are
accepted, whether or not they are registered already, and `RuleBook.registered` is the book after
the run.

Entries are compared by what identifies them (`Entry.key`): the instance of the predicate, or that
there is none, and the instance of the rule. A call for a module makes a predicate of its own, which
no caller has in hand (`Registration.ByCaller`).

Results:
* `register_cases`: what a call comes to.
* `entries_registered`: after a run, the new entries are the first occurrences among the accepted
  ones.
* `Tidy.registered`: no run registers an entry twice, or one whose rule needs an unsupported input.
* `Numbered.registered`: the predicates made for modules are all different.
* **`registered_correct`**: all of this of every book that calls make out of a new one.
-/

namespace Componentry

/-! ## What is refused -/

/-- A rule that needs unsupported inputs is refused with the first one of them. -/
theorem Rule.unsupported_of_first {rule : Rule} {supported pre post : List InputKind}
    {kind : InputKind} (hinputs : rule.inputs = pre ++ kind :: post)
    (hpre : ∀ k ∈ pre, k ∈ supported) (hkind : kind ∉ supported) :
    rule.unsupported supported =
      some (.unsupportedInput rule.description kind.display (supported.map InputKind.display)) := by
  have hfirst : rule.inputs.find? (fun k => !supported.contains k) = some kind := by
    rw [hinputs, List.find?_append, List.find?_eq_none.mpr]
    · simp [hkind]
    · intro k hk
      simp [hpre k hk]
  rw [Rule.unsupported, hfirst]
  rfl

/-- A rule is supported if and only if all its inputs are. -/
theorem Rule.unsupported_eq_none_iff {rule : Rule} {supported : List InputKind} :
    rule.unsupported supported = none ↔ ∀ kind ∈ rule.inputs, kind ∈ supported := by
  simp [Rule.unsupported, List.find?_eq_none]

/-! ## Calls -/

namespace Registration

/-- The rule that a call is about. -/
def action : Registration → RuleInstance
  | forAll action => action
  | forModule _ action => action
  | withSpec _ action => action

/-- Why a call cannot be read, if it cannot. -/
def fault? : Registration → Option Failure
  | forModule text _ =>
    match ModuleId.parse text with
    | .error failure => some failure
    | .ok _ => none
  | _ => none

/-- The predicate of a call, if it has one, is one that a caller made. -/
def ByCaller : Registration → Prop
  | withSpec (some spec) _ => ∃ number, spec.key = .given number
  | _ => True

end Registration

namespace RuleBook

/-- The entry that a call offers, or why there is none. -/
def offer (b : RuleBook) : Registration → Except Failure Entry
  | .forAll action => .ok { action := action }
  | .withSpec spec action => .ok { spec := spec, action := action }
  | .forModule text action =>
    (ModuleId.parse text).map fun module => { spec := some (b.moduleSpec module), action := action }

/-- The book after some calls. -/
def registered (b : RuleBook) (calls : List Registration) : RuleBook :=
  calls.foldl (fun b call => (b.register call).2) b

/-- The entries that calls offer and the book accepts, in the order of the calls. -/
def accepted (b : RuleBook) : List Registration → List Entry
  | [] => []
  | call :: rest =>
    match b.offer call, b.register call with
    | .ok e, (.ok _, next) => e :: next.accepted rest
    | _, (_, next) => next.accepted rest

/-- Whether an entry is in the book. -/
def knows (b : RuleBook) (e : Entry) : Bool := b.entries.any fun known => known.key == e.key

variable {b : RuleBook} {call : Registration} {e : Entry}

theorem knows_iff : b.knows e = true ↔ e.key ∈ b.entries.map Entry.key := by
  simp [knows, List.any_eq_true, List.mem_map]

/-! ## One call -/

/-- An entry is refused, or it is in the book afterwards, where it may have been before. -/
theorem add_cases (b : RuleBook) (e : Entry) :
    (∃ failure, e.action.rule.unsupported b.supported = some failure ∧
      b.add e = (.error failure, b)) ∨
    e.action.rule.unsupported b.supported = none ∧ b.add e =
      (.ok (), { b with entries := if b.knows e then b.entries else b.entries ++ [e] }) := by
  unfold add
  cases e.action.rule.unsupported b.supported with
  | some failure => exact .inl ⟨failure, rfl, rfl⟩
  | none =>
    refine .inr ⟨rfl, ?_⟩
    by_cases hknown : b.knows e = true
    · rw [if_pos hknown]
      exact if_pos hknown
    · rw [if_neg hknown]
      exact if_neg hknown

/-- A call either cannot be read, or offers an entry and adds it; it may have made a predicate
before. -/
theorem offer_cases (b : RuleBook) (call : Registration) :
    (∃ failure, call.fault? = some failure ∧ b.offer call = .error failure ∧
      b.register call = (.error failure, b)) ∨
    ∃ e modules, call.fault? = none ∧ b.offer call = .ok e ∧ e.action = call.action ∧
      b.register call = ({ b with modules := modules } : RuleBook).add e := by
  cases call with
  | forAll action => exact .inr ⟨_, b.modules, rfl, rfl, rfl, rfl⟩
  | withSpec spec action => exact .inr ⟨_, b.modules, rfl, rfl, rfl, rfl⟩
  | forModule text action =>
    rw [offer, register, Registration.fault?]
    cases ModuleId.parse text with
    | error failure => exact .inl ⟨failure, rfl, rfl, rfl⟩
    | ok module => exact .inr ⟨_, b.modules + 1, rfl, rfl, rfl, rfl⟩

/-- **What a call comes to.** It cannot be read, or its rule is refused, and then the entries stay
as they are; or its entry is accepted, and is added unless it is there already. -/
theorem register_cases (b : RuleBook) (call : Registration) :
    (∃ failure, call.fault? = some failure ∧ b.offer call = .error failure ∧
      b.register call = (.error failure, b)) ∨
    (∃ e failure, call.fault? = none ∧ b.offer call = .ok e ∧ e.action = call.action ∧
      call.action.rule.unsupported b.supported = some failure ∧
      (b.register call).1 = .error failure ∧ (b.register call).2.entries = b.entries) ∨
    ∃ e, call.fault? = none ∧ b.offer call = .ok e ∧ e.action = call.action ∧
      call.action.rule.unsupported b.supported = none ∧ (b.register call).1 = .ok () ∧
      (b.register call).2.entries = if b.knows e then b.entries else b.entries ++ [e] := by
  rcases b.offer_cases call with h | ⟨e, modules, hfault, hoffer, haction, hregister⟩
  · exact .inl h
  · rw [hregister, ← haction]
    rcases ({ b with modules := modules } : RuleBook).add_cases e with
      ⟨failure, hfailure, hadd⟩ | ⟨hnone, hadd⟩
    · rw [hadd]
      exact .inr (.inl ⟨e, failure, hfault, hoffer, rfl, hfailure, rfl, rfl⟩)
    · rw [hadd]
      exact .inr (.inr ⟨e, hfault, hoffer, rfl, hnone, rfl, rfl⟩)

/-- A call for a module that is not written as one is refused as such, and changes nothing. -/
theorem register_malformed {text : String} {action : RuleInstance}
    (h : ∀ module, ModuleId.parse text ≠ .ok module) :
    b.register (.forModule text action) =
      (.error (.invalidModule text "expected 'group:name'"), b) := by
  cases hparse : ModuleId.parse text with
  | ok module => exact absurd hparse (h module)
  | error failure => rw [register, hparse, ModuleId.parse_error hparse]

/-- A readable call with a rule that is refused fails for the same reason; one that cannot be read
fails before that. -/
theorem register_refused {failure : Failure}
    (h : call.action.rule.unsupported b.supported = some failure) :
    (b.register call).1 = .error (call.fault?.getD failure) ∧
      (b.register call).2.entries = b.entries := by
  rcases b.register_cases call with ⟨unreadable, hfault, -, hregister⟩ |
    ⟨e, refusal, hfault, -, -, hrefusal, herror, hentries⟩ | ⟨e, -, -, -, hnone, -, -⟩
  · rw [hregister, hfault]
    exact ⟨rfl, rfl⟩
  · obtain rfl := Option.some.inj (h.symm.trans hrefusal)
    rw [herror, hfault]
    exact ⟨rfl, hentries⟩
  · exact absurd (h.symm.trans hnone) (by simp)

/-- A readable call with a rule that is not refused is accepted. -/
theorem register_granted (hfault : call.fault? = none)
    (h : call.action.rule.unsupported b.supported = none) :
    (b.register call).1 = .ok () ∧ ∃ e, b.offer call = .ok e ∧
      (b.register call).2.entries = if b.knows e then b.entries else b.entries ++ [e] := by
  rcases b.register_cases call with ⟨failure, hfailure, -, -⟩ |
    ⟨e, failure, -, -, -, hfailure, -, -⟩ | ⟨e, -, hoffer, -, -, hok, hentries⟩
  · exact absurd (hfault.symm.trans hfailure) (by simp)
  · exact absurd (h.symm.trans hfailure) (by simp)
  · exact ⟨hok, e, hoffer, hentries⟩

theorem supported_register : (b.register call).2.supported = b.supported := by
  rcases b.offer_cases call with ⟨failure, -, -, h⟩ | ⟨e, modules, -, -, -, h⟩
  · rw [h]
  · rw [h]
    rcases ({ b with modules := modules } : RuleBook).add_cases e with
      ⟨failure, -, hadd⟩ | ⟨-, hadd⟩
    · rw [hadd]
    · rw [hadd]

theorem accepted_of_error {failure : Failure} (h : (b.register call).1 = .error failure)
    (rest : List Registration) :
    b.accepted (call :: rest) = (b.register call).2.accepted rest := by
  rw [accepted]
  rcases hregister : b.register call with ⟨outcome, next⟩
  rw [hregister] at h
  subst h
  cases b.offer call <;> rfl

theorem accepted_of_ok (hoffer : b.offer call = .ok e) (h : (b.register call).1 = .ok ())
    (rest : List Registration) :
    b.accepted (call :: rest) = e :: (b.register call).2.accepted rest := by
  rw [accepted, hoffer]
  rcases hregister : b.register call with ⟨outcome, next⟩
  rw [hregister] at h
  subst h
  rfl

/-! ## Runs of calls -/

/-- Whether two entries are the same registration. -/
def sameKey (e f : Entry) : Bool := e.key == f.key

/-- **The first occurrences of the accepted entries are registered**, in the order of the calls,
after what is in the book already. -/
theorem entries_registered (b : RuleBook) (calls : List Registration) :
    (b.registered calls).entries =
      b.entries ++ ((b.accepted calls).filter fun e => !b.knows e).eraseDupsBy sameKey := by
  induction calls generalizing b with
  | nil => simp [registered, accepted]
  | cons call rest ih =>
    have hstep : b.registered (call :: rest) = (b.register call).2.registered rest := rfl
    have hknows : ∀ {b' : RuleBook}, b'.entries = b.entries → b'.knows = b.knows := by
      intro b' h
      funext e
      rw [knows, knows, h]
    rw [hstep, ih]
    rcases b.register_cases call with ⟨failure, -, -, hregister⟩ |
      ⟨e, failure, -, -, -, -, herror, hentries⟩ | ⟨e, -, hoffer, -, -, hok, hentries⟩
    · rw [accepted_of_error (by rw [hregister]), hregister]
    · rw [accepted_of_error herror, hentries, hknows hentries]
    · rw [accepted_of_ok hoffer hok]
      by_cases hknown : b.knows e = true
      · rw [if_pos hknown] at hentries
        rw [hentries, hknows hentries, List.filter_cons_of_neg (by simp [hknown])]
      · rw [if_neg hknown] at hentries
        -- From here on the entry counts as known, which is what the later ones are compared with.
        rw [hentries, List.filter_cons_of_pos (by simpa using hknown), List.eraseDupsBy_cons,
          List.filter_filter, List.append_assoc, List.singleton_append]
        refine congrArg (fun l => b.entries ++ e :: List.eraseDupsBy sameKey l) ?_
        refine List.filter_congr fun x _ => ?_
        have hnext : (b.register call).2.knows x = (b.knows x || e.key == x.key) := by
          rw [knows, hentries]
          simp [knows, List.any_append]
        rw [hnext, sameKey, Bool.not_or, Bool.and_comm, BEq.comm]
        cases x.key == e.key <;> rfl

/-- No entry is there twice, and none has a rule that needs an unsupported input. -/
structure Tidy (b : RuleBook) : Prop where
  nodup : (b.entries.map Entry.key).Nodup
  supports : ∀ e ∈ b.entries, ∀ kind ∈ e.action.rule.inputs, kind ∈ b.supported

theorem Tidy.register (h : b.Tidy) (call : Registration) : (b.register call).2.Tidy := by
  have hsame : (b.register call).2.entries = b.entries → (b.register call).2.Tidy := by
    intro hentries
    constructor
    · rw [hentries]
      exact h.nodup
    · rw [hentries, supported_register]
      exact h.supports
  rcases b.register_cases call with ⟨failure, -, -, hregister⟩ |
    ⟨e, failure, -, -, -, -, -, hentries⟩ | ⟨e, -, -, haction, hsupported, -, hentries⟩
  · exact hsame (by rw [hregister])
  · exact hsame hentries
  · by_cases hknown : b.knows e = true
    · exact hsame (by rw [hentries, if_pos hknown])
    · rw [if_neg hknown] at hentries
      constructor
      · rw [hentries, List.map_append, List.map_singleton, ← List.concat_eq_append]
        exact List.Nodup.concat (fun hmem => hknown (knows_iff.mpr hmem)) h.nodup
      · rw [hentries, supported_register]
        intro x hx
        rcases List.mem_append.mp hx with hx | hx
        · exact h.supports x hx
        · rw [List.mem_singleton.mp hx, haction]
          exact Rule.unsupported_eq_none_iff.mp hsupported

/-- **Calls keep a book tidy.** -/
theorem Tidy.registered (h : b.Tidy) (calls : List Registration) : (b.registered calls).Tidy := by
  induction calls generalizing b with
  | nil => exact h
  | cons call rest ih => exact ih (h.register call)

theorem supported_registered (b : RuleBook) (calls : List Registration) :
    (b.registered calls).supported = b.supported := by
  induction calls generalizing b with
  | nil => rfl
  | cons call rest ih => exact (ih _).trans supported_register

/-! ## Predicates for modules -/

/-- The predicates of the book that were made for modules have the numbers given out so far. -/
def Numbered (b : RuleBook) : Prop :=
  ∀ e ∈ b.entries, ∀ number, e.spec.map (·.key) = some (.forModule number) → number < b.modules

theorem Numbered.mono {modules : Nat} (h : b.Numbered) (hmodules : b.modules ≤ modules) :
    ({ b with modules := modules } : RuleBook).Numbered :=
  fun e he number hkey => Nat.lt_of_lt_of_le (h e he number hkey) hmodules

theorem Numbered.add (h : b.Numbered)
    (hnew : ∀ number, e.spec.map (·.key) = some (.forModule number) → number < b.modules) :
    (b.add e).2.Numbered := by
  rcases b.add_cases e with ⟨failure, -, hadd⟩ | ⟨-, hadd⟩
  · rw [hadd]
    exact h
  · rw [hadd]
    intro x hx number hkey
    dsimp only at hx
    split at hx
    · exact h x hx number hkey
    · rcases List.mem_append.mp hx with hx | hx
      · exact h x hx number hkey
      · rw [List.mem_singleton.mp hx] at hkey
        exact hnew number hkey

theorem Numbered.register (h : b.Numbered) (hcall : call.ByCaller) :
    (b.register call).2.Numbered := by
  cases call with
  | forAll action => exact h.add fun number hkey => absurd hkey (by simp)
  | withSpec spec action =>
    refine h.add fun number hkey => ?_
    cases spec with
    | none => exact absurd hkey (by simp)
    | some spec =>
      obtain ⟨given, hgiven⟩ := hcall
      simp [hgiven] at hkey
  | forModule text action =>
    rw [RuleBook.register]
    cases ModuleId.parse text with
    | error failure => exact h
    | ok module =>
      refine (h.mono (Nat.le_succ _)).add fun number hkey => ?_
      have hnumber : b.modules = number := by simpa [moduleSpec] using hkey
      rw [← hnumber]
      exact Nat.lt_succ_self _

theorem Numbered.registered (h : b.Numbered) {calls : List Registration}
    (hcalls : ∀ call ∈ calls, call.ByCaller) : (b.registered calls).Numbered := by
  induction calls generalizing b with
  | nil => exact h
  | cons call rest ih =>
    obtain ⟨hcall, hrest⟩ := List.forall_mem_cons.mp hcalls
    exact ih (h.register hcall) hrest

/-- **The predicate that a call for a module makes is new**, so its entry is always added. -/
theorem Numbered.register_module (h : b.Numbered) {text : String} {module : ModuleId}
    {action : RuleInstance} (hmodule : ModuleId.parse text = .ok module)
    (hsupported : action.rule.unsupported b.supported = none) :
    (b.register (.forModule text action)).2.entries =
        b.entries ++ [{ spec := some (b.moduleSpec module), action := action }] ∧
      ∀ e ∈ b.entries, e.spec.map (·.key) ≠ some (b.moduleSpec module).key := by
  have hnew : ∀ e ∈ b.entries, e.spec.map (·.key) ≠ some (b.moduleSpec module).key := by
    intro e he hkey
    exact Nat.lt_irrefl _ (h e he b.modules hkey)
  refine ⟨?_, hnew⟩
  have hfault : (Registration.forModule text action).fault? = none := by
    rw [Registration.fault?, hmodule]
  obtain ⟨-, e, hoffer, hentries⟩ := register_granted hfault hsupported
  rw [offer, hmodule] at hoffer
  obtain rfl := Except.ok.inj hoffer
  rw [hentries, if_neg]
  rw [knows_iff, List.mem_map]
  rintro ⟨e, he, hkey⟩
  exact hnew e he (congrArg Prod.fst hkey)

/-! ## Books made by calls -/

/-- What holds of a book that calls make out of a new one. -/
structure Registered (calls : List Registration) (b : RuleBook) : Prop where
  /-- The registered entries are the first occurrences, in the order of the calls, among the
  accepted ones. -/
  entries_eq : b.entries = (accepted {} calls).eraseDupsBy sameKey
  /-- No two of them have the same predicate, or both none, and the same rule. -/
  nodup : (b.entries.map Entry.key).Nodup
  /-- A call for a module that is not written as one is refused as such, and changes nothing. -/
  malformed : ∀ text action, (∀ module, ModuleId.parse text ≠ .ok module) →
    b.register (.forModule text action) = (.error (.invalidModule text "expected 'group:name'"), b)
  /-- A call with a rule that needs an input outside of the list is refused with the first such
  input, unless it cannot be read, which is noticed before. Either way the entries stay as they
  are. -/
  unsupported : ∀ call pre kind post, call.action.rule.inputs = pre ++ kind :: post →
    (∀ k ∈ pre, k ∈ b.supported) → kind ∉ b.supported →
    (b.register call).1 = .error (call.fault?.getD (.unsupportedInput call.action.rule.description
        kind.display (b.supported.map InputKind.display))) ∧
      (b.register call).2.entries = b.entries
  /-- All other calls are accepted. -/
  granted : ∀ call, call.fault? = none →
    (∀ kind ∈ call.action.rule.inputs, kind ∈ b.supported) → (b.register call).1 = .ok ()
  /-- A call for a module makes a predicate that accepts the components of the module and is none of
  those in the book, whatever predicates callers made. -/
  fresh : (∀ call ∈ calls, call.ByCaller) → ∀ text module action,
    ModuleId.parse text = .ok module → (∀ kind ∈ action.rule.inputs, kind ∈ b.supported) →
    ∃ spec : Spec, (∀ id details, spec.accepts id details = (id.toModuleId == module)) ∧
      (∀ e ∈ b.entries, e.spec.map (·.key) ≠ some spec.key) ∧
      (b.register (.forModule text action)).2.entries =
        b.entries ++ [{ spec := some spec, action := action }]
  /-- The list of inputs is that of a new book. -/
  supported : b.supported = [.ivyDescriptor]
  /-- All rules need inputs on the list only. -/
  supports : ∀ e ∈ b.entries, ∀ kind ∈ e.action.rule.inputs, kind ∈ b.supported
  /-- The trace of processing tells which bodies ran. -/
  runs : ∀ c, (b.process c).trace.filter RuleEvent.isRun =
    (executions b.entries c).map Execution.event
  /-- No rule runs twice over a component with the same predicate, or twice without one. -/
  runs_once : ∀ c, ((executions b.entries c).map (·.entry.key)).Nodup

theorem tidy_new : ({} : RuleBook).Tidy :=
  ⟨List.nodup_nil, fun _ he => absurd he List.not_mem_nil⟩

theorem numbered_new : ({} : RuleBook).Numbered := fun _ he => absurd he List.not_mem_nil

/-- **Registration keeps a validated list without repetitions**, in the order of the calls; refused
calls change nothing in it, and no registered rule runs more than once. -/
theorem registered_correct (calls : List Registration) :
    Registered calls (registered {} calls) := by
  have htidy : (registered {} calls).Tidy := tidy_new.registered calls
  refine
    { entries_eq := ?_
      nodup := htidy.nodup
      malformed := fun _ _ hmodule => register_malformed hmodule
      unsupported := fun _ _ _ _ hinputs hpre hkind =>
        register_refused (Rule.unsupported_of_first hinputs hpre hkind)
      granted := fun _ hfault hinputs =>
        (register_granted hfault (Rule.unsupported_eq_none_iff.mpr hinputs)).1
      fresh := fun hcalls text module action hmodule hinputs => ?_
      supported := supported_registered {} calls
      supports := htidy.supports
      runs := fun c => trace_executions _ c
      runs_once := fun c => ?_ }
  · rw [entries_registered, List.nil_append, List.filter_eq_self.mpr]
    intro e _
    rfl
  · have hnumbered : (registered {} calls).Numbered := numbered_new.registered hcalls
    obtain ⟨hentries, hnew⟩ :=
      hnumbered.register_module hmodule (Rule.unsupported_eq_none_iff.mpr hinputs)
    exact ⟨_, fun _ _ => rfl, hnew, hentries⟩
  · have hsublist := (sublist_executions (registered {} calls).entries c).map Entry.key
    rw [List.map_map] at hsublist
    exact htidy.nodup.sublist hsublist

/-- A rule that does nothing. -/
def idleRule (number : Nat) (inputs : List InputKind) : RuleInstance where
  number := number
  rule := { description := "idle", inputs := inputs, body := fun _ _ details => (.done, details) }

/-- Two rules, one of them registered for all components, for a module and again for both, between
calls that are refused. -/
def mixedCalls : List Registration :=
  [.forAll (idleRule 0 []), .forModule "org:lib" (idleRule 0 []), .forModule "org" (idleRule 1 []),
    .forAll (idleRule 2 [.ivyDescriptor, .pomDescriptor]), .forAll (idleRule 0 []),
    .withSpec none (idleRule 1 [.ivyDescriptor]), .forModule "org:lib" (idleRule 0 [])]

/-- The same rule is there once for all components, and once for each call for the module. -/
theorem registered_correct_mixed :
    (∀ call ∈ mixedCalls, call.ByCaller) ∧
      ((registered {} mixedCalls).entries.map Entry.key) =
        [(none, 0), (some (.forModule 0), 0), (none, 1), (some (.forModule 1), 0)] := by
  constructor
  · simp [mixedCalls, Registration.ByCaller]
  · rw [(registered_correct mixedCalls).entries_eq]
    rfl

end RuleBook

end Componentry

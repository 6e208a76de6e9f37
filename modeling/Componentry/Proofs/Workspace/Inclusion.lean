import Componentry.Command.Run
import Componentry.Proofs.Path.FileName
import Componentry.Proofs.Workspace.Naming
import Mathlib.Tactic.TFAE

/-!
# Which components patterns include

A view that is given patterns accepts a component if one of them matches what the component is
matched by. For the component of a dependency this is the text that the dependency is declared by:
`group:name:version`, the path of a project, or the path of a file. A file would be included by its
name, but is not, unless its path is no more than its name.

* `Glob.Matches`: a pattern matches a text.
* `Glob.escape`: the pattern that matches one text only.
* `Dependency.includeName`: what a dependency should be included by.

Results:
* `Glob.matches_escape_iff`: patterns can tell any two texts apart.
* `ViewCommand.accepts_iff`: what a view with patterns accepts.
* **`include_selects`**: of the components of a configuration, which ones patterns include, and
  which of them they include by their names; `nested_file_missed` is not.
-/

namespace Componentry

/-! ## Patterns for one text -/

namespace Glob

/-- A text is a pattern that matches another text. -/
def Matches (pattern text : String) : Prop :=
  ∃ tokens, compile pattern = .ok tokens ∧ covers tokens text.toList = true

instance (pattern text : String) : Decidable (Matches pattern text) :=
  match h : compile pattern with
  | .ok tokens => decidable_of_iff (covers tokens text.toList = true) (by simp [Matches, h])
  | .error _ => .isFalse (by simp [Matches, h])

/-- The characters that open something in a pattern. -/
def isSpecial (c : Char) : Bool := c = '?' || c = '*' || c = '['

/-- The pattern for one character: special ones stand in brackets. -/
def escapeChar (c : Char) : List Char := if isSpecial c then ['[', c, ']'] else [c]

/-- The token for one character. -/
def charToken (c : Char) : Token := if isSpecial c then .oneOf [.single c] else .literal c

/-- **The pattern for one text.** -/
def escape (text : String) : String := String.ofList (text.toList.flatMap escapeChar)

theorem takes_charToken {c d : Char} : (charToken d).takes c = true ↔ c = d := by
  rw [charToken]
  split
  · change ((c == d) || false) = true ↔ c = d
    rw [Bool.or_false, beq_iff_eq]
  · exact beq_iff_eq

theorem covers_map_charToken : ∀ {text cs : List Char},
    covers (text.map charToken) cs = true ↔ cs = text
  | [], cs => by simp [covers]
  | c :: text, [] => by
    have hnone : covers (charToken c :: text.map charToken) [] = false := by
      unfold charToken
      split <;> rfl
    simp [hnone]
  | c :: text, d :: cs => by
    have hone : covers (charToken c :: text.map charToken) (d :: cs) =
        ((charToken c).takes d && covers (text.map charToken) cs) := by
      unfold charToken
      split <;> rfl
    rw [List.map_cons, hone, Bool.and_eq_true, takes_charToken, covers_map_charToken,
      List.cons.injEq]

/-- A special character in brackets is a set of its own. -/
theorem readSet_special {c : Char} (h : isSpecial c = true) (rest : List Char) :
    readSet (c :: ']' :: rest) = some (.oneOf [.single c], 2) := by
  simp only [isSpecial, Bool.or_eq_true, decide_eq_true_eq] at h
  rcases h with (rfl | rfl) | rfl <;> simp [readSet, members]

theorem compileFrom_escape : ∀ (text : List Char) (position : Nat) (before : Option Char)
    (done : List Token), compileFrom (text.flatMap escapeChar) position 0 before done =
      .ok (done.reverse ++ text.map charToken)
  | [], _, _, _ => by simp [compileFrom]
  | c :: text, position, before, done => by
    cases hc : isSpecial c with
    | true =>
      have hstep : compileFrom ('[' :: c :: ']' :: text.flatMap escapeChar) position 0 before done =
          compileFrom (text.flatMap escapeChar) (position + 3) 0 (some ']')
            (.oneOf [.single c] :: done) := by
        simp [compileFrom, readSet_special hc]
      simp [escapeChar, charToken, hc, hstep, compileFrom_escape text]
    | false =>
      have hplain : c ≠ '?' ∧ c ≠ '*' ∧ c ≠ '[' := by simpa [isSpecial, and_assoc] using hc
      simp [escapeChar, charToken, hc, compileFrom, hplain, compileFrom_escape text]

theorem compile_escape (text : String) :
    compile (escape text) = .ok (text.toList.map charToken) := by
  rw [compile, escape, String.toList_ofList, compileFrom_escape, List.reverse_nil, List.nil_append]

/-- **Patterns can tell any two texts apart.** -/
theorem matches_escape_iff {text other : String} : Matches (escape text) other ↔ other = text := by
  rw [Matches, compile_escape]
  simp [covers_map_charToken, String.toList_inj]

end Glob

/-! ## What a view with patterns accepts -/

/-- Members that go together have what they go together for. -/
theorem exists_mem_iff {α β : Type} {R : α → β → Prop} {p : α → Prop} {q : β → Prop} {xs : List α}
    {ys : List β} (h : List.Forall₂ R xs ys) (hpq : ∀ x y, R x y → (p x ↔ q y)) :
    (∃ x ∈ xs, p x) ↔ ∃ y ∈ ys, q y := by
  induction h with
  | nil => simp
  | cons hxy _ ih => simp [hpq _ _ hxy, ih]

namespace ViewCommand

variable {v : ViewCommand} {request : ViewRequest} {pattern : Glob.Pattern}

/-- One of the patterns matches a text. -/
def Selects (v : ViewCommand) (text : String) : Prop :=
  ∃ pattern ∈ v.patterns, Glob.Matches pattern text

instance (v : ViewCommand) (text : String) : Decidable (v.Selects text) :=
  inferInstanceAs (Decidable (∃ pattern ∈ v.patterns, _))

theorem readPattern_eq_ok_iff {text : String} {tokens : Glob.Pattern} :
    readPattern text = .ok tokens ↔ Glob.compile text = .ok tokens := by
  unfold readPattern
  cases Glob.compile text <;> simp

/-- The patterns of a request that was read are those of the command. -/
theorem request_filter (hne : v.patterns ≠ []) (h : v.request = .ok request) :
    ∃ patterns,
      List.Forall₂ (fun text tokens => Glob.compile text = .ok tokens) v.patterns patterns ∧
      request.filter = some (.ofPatterns patterns) := by
  unfold ViewCommand.request at h
  cases hread : v.patterns.mapM readPattern with
  | error fault =>
    rw [hread] at h
    cases h
  | ok patterns =>
    rw [hread] at h
    obtain rfl := Except.ok.inj h
    have hall := mapM_eq_ok_iff.mp hread
    have hsome : patterns ≠ [] := by
      rintro rfl
      exact hne (List.forall₂_nil_right_iff.mp hall)
    exact ⟨patterns, hall.imp fun _ _ => readPattern_eq_ok_iff.mp, by simp [hsome]⟩

/-- **What a view with patterns accepts**: the components that one of the patterns matches. -/
theorem accepts_iff (hne : v.patterns ≠ []) (h : v.request = .ok request) (r : Resolution)
    (id : ComponentId) (m : Memo) :
    ((r.view request).accepts id m).1 = true ↔ v.Selects id.includeKey := by
  obtain ⟨patterns, hpatterns, hfilter⟩ := request_filter hne h
  have haccepts : ((r.view request).accepts id m).1 =
      patterns.any fun p => Glob.covers p id.includeKey.toList := by
    simp [View.accepts, Resolution.view, hfilter, Memo.accepts, ComponentFilter.ofPatterns,
      Glob.isMatch_eq_covers]
  rw [haccepts, List.any_eq_true]
  refine (exists_mem_iff hpatterns fun text tokens hcompile => ?_).symm
  simp [Glob.Matches, hcompile]

/-- The view of one pattern. -/
theorem request_of_compile (configuration : String) {text : String} {tokens : Glob.Pattern}
    (h : Glob.compile text = .ok tokens) :
    ∃ request, ViewCommand.request { configuration, patterns := [text] } = .ok request := by
  rw [ViewCommand.request, List.mapM_cons, readPattern_eq_ok_iff.mpr h]
  exact ⟨_, rfl⟩

end ViewCommand

/-! ## The components of a configuration -/

/-- **What a dependency should be included by**: a module by `group:name:version`, a project by its
path, and a file by its name. -/
def Dependency.includeName (d : Dependency) : String :=
  match d.target with
  | .module id => id.display
  | .project path => path
  | .file path => path.artifactName

/-- Only the path of a file can be more than its name. -/
theorem Dependency.text_eq_includeName_iff {d : Dependency} :
    d.text = d.includeName ↔
      ∀ path, d.target = .file path → Path.IsName path ∨ path.fileName = none := by
  unfold text includeName
  cases d.target with
  | module id => simp
  | project path => simp
  | file path =>
    have hself := Path.fileName_eq_self_iff (p := path)
    cases hname : path.fileName with
    | none => simp [Path.artifactName, hname]
    | some name =>
      rw [hname, Option.some.injEq] at hself
      simp [Path.artifactName, hname, ← hself, eq_comm]

namespace Workspace

variable {w : Workspace} {d : Dependency} {c : ResolvedComponent}

/-- A component is matched by the text of the dependency that it is located for. -/
theorem includeKey_of_locate (h : w.locate d = .ok c) : c.id.includeKey = d.text := by
  obtain ⟨target, attributes⟩ := d
  cases target with
  | module id =>
    obtain rfl := Except.ok.inj h
    rfl
  | project path =>
    simp only [locate] at h
    split at h
    · rename_i s hs
      obtain rfl := Except.ok.inj h
      have hpath : s.path = path := by simpa using List.find?_some hs
      exact hpath
    · cases h
  | file path =>
    obtain rfl := Except.ok.inj h
    rfl

/-- A component is included by its name as it should be, if its name is its text. -/
theorem included_by_name_iff (h : w.locate d = .ok c) (r : Resolution) :
    (∀ (v : ViewCommand) (request : ViewRequest), v.patterns ≠ [] → v.request = .ok request →
      ∀ m, ((r.view request).accepts c.id m).1 = true ↔ v.Selects d.includeName) ↔
      d.text = d.includeName := by
  constructor
  · intro hname
    obtain ⟨request, hrequest⟩ := ViewCommand.request_of_compile r.configuration
      (Glob.compile_escape d.includeName)
    have hne : [Glob.escape d.includeName] ≠ [] := List.cons_ne_nil _ _
    have haccepted := (hname _ request hne hrequest {}).mpr
      ⟨_, List.mem_cons_self, Glob.matches_escape_iff.mpr rfl⟩
    obtain ⟨pattern, hpattern, hmatches⟩ :=
      (ViewCommand.accepts_iff hne hrequest r c.id {}).mp haccepted
    rw [includeKey_of_locate h, List.mem_singleton.mp hpattern] at hmatches
    exact Glob.matches_escape_iff.mp hmatches
  · intro hname v request hne hrequest m
    rw [ViewCommand.accepts_iff hne hrequest, includeKey_of_locate h, hname]

/-- **Which components patterns include.** A configuration resolves to one component for each of its
dependencies, in order. A view with patterns accepts the component if and only if one of them
matches the text of the dependency. It would be included by its name, whatever the patterns are, if
and only if this is its text, which is so for all modules and projects, and for the files whose path
is no more than a name. -/
theorem include_selects {name : String} {r : Resolution} (h : (w.resolve name).outcome = .ok r) :
    ∃ c, w.session.container.get? name = some c ∧ List.Forall₂ (fun (d : Dependency) component =>
      (∀ (v : ViewCommand) (request : ViewRequest), v.patterns ≠ [] → v.request = .ok request →
        ∀ m, ((r.view request).accepts component.id m).1 = true ↔ v.Selects d.text) ∧
      [∀ (v : ViewCommand) (request : ViewRequest), v.patterns ≠ [] → v.request = .ok request →
          ∀ m, ((r.view request).accepts component.id m).1 = true ↔ v.Selects d.includeName,
        d.text = d.includeName,
        ∀ path, d.target = .file path → Path.IsName path ∨ path.fileName = none].TFAE)
      c.dependencies r.components := by
  obtain ⟨-, c, hc, hlocated⟩ := resolve_eq_ok h
  refine ⟨c, hc, hlocated.imp fun d component hlocate => ⟨fun v request hne hrequest m => ?_, ?_⟩⟩
  · rw [ViewCommand.accepts_iff hne hrequest, includeKey_of_locate hlocate]
  · tfae_have 1 ↔ 2 := included_by_name_iff hlocate r
    tfae_have 2 ↔ 3 := Dependency.text_eq_includeName_iff
    tfae_finish

end Workspace

/-- A project with one configuration, which depends on files. -/
def Descriptor.dependingOnFiles (files : List Path) : Descriptor where
  project := { group := "org.example", name := "app", version := "1.0" }
  configurations := [{ name := "runtime", files := files }]

/-- The view of a file by its name. -/
def ViewCommand.localJar : ViewCommand := { configuration := "runtime", patterns := ["local.jar"] }

namespace Workspace

/-- Of two files with one name, the one that is declared by its name is included. -/
theorem include_selects_by_text :
    ∃ w r request,
      (assemble (.dependingOnFiles ["local.jar", "libs/local.jar"]) "/work").outcome = .ok w ∧
      (w.resolve "runtime").outcome = .ok r ∧ ViewCommand.localJar.request = .ok request ∧
      r.components.map (·.id) = [.file "local.jar", .file "libs/local.jar"] ∧
      ∀ m, ((r.view request).accepts (.file "local.jar") m).1 = true ∧
        ¬ ((r.view request).accepts (.file "libs/local.jar") m).1 = true := by
  obtain ⟨w, r, request, c, hw, hr, hrequest, hc, hdependencies, hcomponents⟩ : ∃ w r request c,
      (assemble (.dependingOnFiles ["local.jar", "libs/local.jar"]) "/work").outcome = .ok w ∧
        (w.resolve "runtime").outcome = .ok r ∧ ViewCommand.localJar.request = .ok request ∧
        w.session.container.get? "runtime" = some c ∧
        c.dependencies = [⟨.file "local.jar", Dict.empty⟩, ⟨.file "libs/local.jar", Dict.empty⟩] ∧
        r.components = [.ofFile "local.jar" "/work/local.jar",
          .ofFile "libs/local.jar" "/work/libs/local.jar"] :=
    ⟨_, _, _, _, rfl, rfl, rfl, rfl, rfl, rfl⟩
  obtain ⟨c', hc', hall⟩ := include_selects hr
  obtain rfl := Option.some.inj (hc.symm.trans hc')
  rw [hdependencies, hcomponents] at hall
  obtain ⟨⟨hplain, -⟩, hrest⟩ := List.forall₂_cons.mp hall
  obtain ⟨⟨hnested, -⟩, -⟩ := List.forall₂_cons.mp hrest
  have hne : ViewCommand.localJar.patterns ≠ [] := by decide
  exact ⟨w, r, request, hw, hr, hrequest, by rw [hcomponents]; rfl, fun m =>
    ⟨(hplain _ request hne hrequest m).mpr (by decide),
      fun haccepted => absurd ((hnested _ request hne hrequest m).mp haccepted) (by decide)⟩⟩

/-- **A file that is not included by its name**: it is declared in a directory, and the command
prints nothing. -/
theorem nested_file_missed :
    ∃ w r request, (assemble (.dependingOnFiles ["libs/local.jar"]) "/work").outcome = .ok w ∧
      (w.resolve "runtime").outcome = .ok r ∧ ViewCommand.localJar.request = .ok request ∧
      r.components.map (·.id) = [.file "libs/local.jar"] ∧
      Path.fileName "libs/local.jar" = some "local.jar" ∧
      ViewCommand.localJar.Selects "local.jar" ∧
      (∀ m, ((r.view request).accepts (.file "libs/local.jar") m).1 = false) ∧
      ((Command.view .localJar).run false w).outcome = .ok "" :=
  ⟨_, _, _, rfl, rfl, rfl, rfl, by decide, by decide, fun _ => rfl, rfl⟩

end Workspace

end Componentry

import Mathlib.Data.List.Chain
import Mathlib.Data.List.Iterate
import Componentry.Proofs.Replacement.Acyclic

/-!
# The cycle that is reported

A declaration that closes a cycle is refused with the cycle spelled out. The walk that finds it
starts at the target and goes from module to module along the declared replacements. The previous
one of the declared module is still among them, but the walk stops when it meets this module, so its
steps are the edges of `LeadsApart`. Two things could keep it from closing the cycle: a round that
never meets the module, and a module without a replacement, at which the declaration would be let
through.

Results:
* `Way.acc`: there is no endless walk where there is a way to the goal.
* `Way.replaced`: no walk then gets to a module without a replacement before the goal.
* `Way.isChain`, `Way.iterate`: the way is what replaces what replaces the target, and so on.
* **`cycle_reported`**: what is reported of a declaration that closes a cycle.
-/

namespace Componentry

open Relation

namespace Replacements

/-- The module by which a module is replaced, or itself if it is not replaced. -/
def next (r : Replacements) (x : ModuleId) : ModuleId :=
  match r.replacementOf x with
  | some p => p.target
  | none => x

variable {r : Replacements} {m t a b c x y goal : ModuleId} {l : List ModuleId}

theorem LeadsApart.next_eq (h : r.LeadsApart m a b) : r.next a = b := by
  obtain ⟨-, p, hp, rfl⟩ := h
  rw [next, hp]

/-! ## Along a way -/

/-- Wherever the walk gets, there is a way from there on. -/
theorem Way.onward (h : r.Way goal x l) (hxy : ReflTransGen (r.LeadsApart goal) x y) :
    ∃ rest, r.Way goal y rest := by
  induction hxy with
  | refl => exact ⟨l, h⟩
  | tail _ hstep ih =>
    obtain ⟨rest, hrest⟩ := ih
    obtain ⟨hne, p, hp, rfl⟩ := hstep
    cases rest with
    | nil => exact absurd hrest hne
    | cons z rest =>
      obtain ⟨-, -, q, hq, hway⟩ := hrest
      obtain rfl := Option.some.inj (hp.symm.trans hq)
      exact ⟨rest, hway⟩

/-- Every module that the walk gets to is replaced, up to the goal. -/
theorem Way.replaced (h : r.Way goal x l) (hxy : ReflTransGen (r.LeadsApart goal) x y)
    (hy : y ≠ goal) : (r.replacementOf y).isSome := by
  obtain ⟨rest, hrest⟩ := h.onward hxy
  cases rest with
  | nil => exact absurd hrest hy
  | cons z rest =>
    obtain ⟨-, -, p, hp, -⟩ := hrest
    rw [hp]
    rfl

/-- **A walk from the start of a way ends**: each step leaves less of the way. -/
theorem Way.acc (h : r.Way goal x l) : Acc (fun b a => r.LeadsApart goal a b) x := by
  induction l generalizing x with
  | nil =>
    refine Acc.intro _ fun b hb => ?_
    exact absurd h hb.1
  | cons z rest ih =>
    obtain ⟨-, -, p, hp, hway⟩ := h
    refine Acc.intro _ fun b hb => ?_
    obtain ⟨-, q, hq, rfl⟩ := hb
    obtain rfl := Option.some.inj (hp.symm.trans hq)
    exact ih hway

theorem Way.not_mem (h : r.Way goal x l) : goal ∉ l := by
  induction l generalizing x with
  | nil => exact List.not_mem_nil
  | cons z rest ih =>
    obtain ⟨rfl, hx, p, -, hway⟩ := h
    intro hmem
    rcases List.mem_cons.mp hmem with rfl | hmem
    · exact hx rfl
    · exact ih hway hmem

/-- Each step of a way is a replacement, and not the goal's own. -/
theorem Way.isChain (h : r.Way goal x l) :
    (l ++ [goal]).head? = some x ∧ (l ++ [goal]).IsChain (r.LeadsApart goal) := by
  induction l generalizing x with
  | nil =>
    obtain rfl : x = goal := h
    exact ⟨rfl, .singleton x⟩
  | cons z rest ih =>
    obtain ⟨rfl, hx, p, hp, hway⟩ := h
    obtain ⟨hhead, hchain⟩ := ih hway
    rw [List.cons_append, List.isChain_cons]
    refine ⟨rfl, fun w hw => ?_, hchain⟩
    rw [hhead] at hw
    obtain rfl := Option.some.inj hw
    exact ⟨hx, p, hp, rfl⟩

/-- A way is the replacement of the replacement, and so on. -/
theorem Way.iterate (h : r.Way goal x l) : l ++ [goal] = List.iterate r.next x (l.length + 1) := by
  induction l generalizing x with
  | nil =>
    obtain rfl : x = goal := h
    rfl
  | cons z rest ih =>
    obtain ⟨rfl, hx, p, hp, hway⟩ := h
    have hnext : r.next x = p.target := LeadsApart.next_eq ⟨hx, p, hp, rfl⟩
    rw [List.cons_append, ih hway, ← hnext]
    rfl

/-! ## The report -/

/-- **The way is the one back to a module from the target** of a declaration, and the walk finds
it. -/
structure LeadsBack (r : Replacements) (m t : ModuleId) (way : List ModuleId) : Prop where
  /-- The walk from the target cannot go on for ever. -/
  ends : Acc (fun b a => r.LeadsApart m a b) t
  /-- It does not get to a module that is not replaced, other than the one it looks for. -/
  replaced : ∀ x, ReflTransGen (r.LeadsApart m) t x → x ≠ m → (r.replacementOf x).isSome
  /-- Any number of steps that suffices for the way gives it, and the number of entries does. -/
  found : ∀ fuel, way.length ≤ fuel → r.walk m fuel t = some way
  length_le : way.length ≤ r.size
  /-- With the module at its end, it is the target, its replacement, the replacement of this, and so
  on. -/
  iterate : way ++ [m] = List.iterate r.next t (way.length + 1)
  /-- Each of these steps is a declared replacement, and not the module's own. -/
  isChain : (way ++ [m]).IsChain (r.LeadsApart m)
  /-- No module is met twice, and the one that the walk looks for only at the end. -/
  nodup : way.Nodup
  not_mem : m ∉ way

theorem Way.leadsBack (h : r.Way m t l) : r.LeadsBack m t l where
  ends := h.acc
  replaced := fun _ => h.replaced
  found := fun _ hfuel => walk_eq_some_iff.mpr ⟨h, hfuel⟩
  length_le := h.length_le_size
  iterate := h.iterate
  isChain := h.isChain.2
  nodup := h.nodup
  not_mem := h.not_mem

/-- **The cycle that is reported is a real one.** Whatever requests were made before, if a
declaration `m → t` closes a cycle anywhere in the graph, then the way from `t` along the declared
replacements leads back to `m`, the walk finds it, and the declaration is refused with `m`, this way
and `m` again. -/
theorem cycle_reported (qs : List ReplacementRequest) {q : ReplacementRequest}
    {d : ReplacementDeclaration} (hread : q.read = .ok d)
    (hcloses : ∃ a, TransGen ((run Dict.empty qs).LeadsWith d.module d.replacement.target) a a) :
    ∃ way, (run Dict.empty qs).LeadsBack d.module d.replacement.target way ∧
      (run Dict.empty qs).request q = .error
        (.replacementCycle d.module.display d.replacement.target.display
          (" -> ".intercalate ((d.module :: way ++ [d.module]).map ModuleId.display))) ∧
      (run Dict.empty qs).after q = run Dict.empty qs := by
  have hacyclic : (run Dict.empty qs).Acyclic := acyclic_run qs acyclic_empty
  obtain ⟨way, hway⟩ := exists_way_iff.mpr ((exists_transGen_leadsWith_iff hacyclic).mp hcloses)
  have hback := hway.leadsBack
  have hrefused : (run Dict.empty qs).request q = .error
      (.replacementCycle d.module.display d.replacement.target.display
        (" -> ".intercalate ((d.module :: way ++ [d.module]).map ModuleId.display))) := by
    rw [request_of_read hread, declare, cycle?, hback.found _ hback.length_le]
    rfl
  exact ⟨way, hback, hrefused, after_of_error hrefused⟩

/-- A module of the group `g`. -/
def inGroup (name : String) : ModuleId := ⟨"g", name⟩

/-- Three declarations, after which `c` is replaced by `d`, and `a` by `b` by `c`. -/
def upToC : List ReplacementRequest :=
  [⟨"g:c", "g:d", none⟩, ⟨"g:a", "g:b", none⟩, ⟨"g:b", "g:c", none⟩]

/-- Redirecting `c` to `a` closes a cycle, and the previous replacement of `c` is no part of it. -/
theorem cycle_reported_redirected :
    (∃ a, TransGen ((run Dict.empty upToC).LeadsWith (inGroup "c") (inGroup "a")) a a) ∧
      (run Dict.empty upToC).request ⟨"g:c", "g:a", none⟩ =
        .error (.replacementCycle "g:c" "g:a" "g:c -> g:a -> g:b -> g:c") := by
  have hcloses :
      ∃ a, TransGen ((run Dict.empty upToC).LeadsWith (inGroup "c") (inGroup "a")) a a := by
    refine ⟨inGroup "c", .head (.inr ⟨rfl, rfl⟩) ?_⟩
    refine .head (b := inGroup "b") (.inl ?_) (.single (.inl ?_))
    · exact ⟨by decide, ⟨inGroup "b", none⟩, rfl, rfl⟩
    · exact ⟨by decide, ⟨inGroup "c", none⟩, rfl, rfl⟩
  refine ⟨hcloses, ?_⟩
  obtain ⟨way, hback, hrefused, -⟩ := cycle_reported upToC (q := ⟨"g:c", "g:a", none⟩)
    (d := ⟨inGroup "c", inGroup "a", none⟩) rfl hcloses
  have hway : way = [inGroup "a", inGroup "b"] :=
    Option.some.inj ((hback.found _ hback.length_le).symm.trans rfl)
  rw [hrefused, hway]
  rfl

end Replacements

end Componentry

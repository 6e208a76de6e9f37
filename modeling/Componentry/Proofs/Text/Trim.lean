import Mathlib.Data.List.DropRight
import Componentry.Text.Blank

/-!
# What trimming leaves

Trimming takes white space away at both ends of a text and nowhere else, until there is none left at
the ends. That determines what is left: white space inside a text stays, and of white space alone
there is nothing left.

* `whiteSpace`: the code points of white space.
* `AllBlank`, `Trimmed`: nothing but white space, and none at the ends.
* `Trims cs ds`: `cs` is `ds` with white space around it.

Results:
* `isBlank_iff`: which characters are white space.
* **`trim_eq_iff`**, `trim_eq_nil_iff`: what trimming leaves.
-/

namespace Componentry.Text

/-- The code points with the White_Space property, from the first to the last of each range. -/
def whiteSpace : List (Nat × Nat) :=
  [(0x9, 0xD), (0x20, 0x20), (0x85, 0x85), (0xA0, 0xA0), (0x1680, 0x1680), (0x2000, 0x200A),
    (0x2028, 0x2029), (0x202F, 0x202F), (0x205F, 0x205F), (0x3000, 0x3000)]

theorem isBlank_iff (c : Char) :
    isBlank c = true ↔ ∃ range ∈ whiteSpace, range.1 ≤ c.toNat ∧ c.toNat ≤ range.2 := by
  simp only [isBlank, whiteSpace, List.exists_mem_cons_iff, List.not_mem_nil, false_and,
    exists_false, or_false, Bool.or_eq_true, Bool.and_eq_true, decide_eq_true_eq, beq_iff_eq]
  omega

/-- Nothing but white space. -/
def AllBlank (cs : List Char) : Prop := ∀ c ∈ cs, isBlank c = true

instance (cs : List Char) : Decidable (AllBlank cs) :=
  decidable_of_iff (cs.all isBlank = true) List.all_eq_true

/-- No white space at either end. -/
def Trimmed (cs : List Char) : Prop :=
  (∀ c ∈ cs.head?, isBlank c = false) ∧ ∀ c ∈ cs.getLast?, isBlank c = false

/-- **A text is another one with white space around it**, which itself has none at its ends. -/
def Trims (cs ds : List Char) : Prop :=
  Trimmed ds ∧ ∃ before after, AllBlank before ∧ AllBlank after ∧ cs = before ++ ds ++ after

variable {cs ds before after : List Char}

/-! ## White space at one end -/

theorem dropWhile_append (hbefore : AllBlank before) (hds : ∀ c ∈ ds.head?, isBlank c = false) :
    (before ++ ds).dropWhile isBlank = ds := by
  rw [List.dropWhile_append_of_pos hbefore]
  cases ds with
  | nil => rfl
  | cons c rest => rw [List.dropWhile_cons_of_neg (by simp [hds c rfl])]

theorem trimEnd_append (hafter : AllBlank after) (hds : ∀ c ∈ ds.getLast?, isBlank c = false) :
    trimEnd (ds ++ after) = ds := by
  have hreverse : AllBlank after.reverse := fun c hc => hafter c (List.mem_reverse.mp hc)
  rw [trimEnd, List.reverse_append, dropWhile_append hreverse, List.reverse_reverse]
  rwa [List.head?_reverse]

theorem head_dropWhile (cs : List Char) :
    ∀ c ∈ (cs.dropWhile isBlank).head?, isBlank c = false := by
  intro c hc
  have hstop := List.head?_dropWhile_not isBlank cs
  rw [Option.mem_def.mp hc] at hstop
  simpa using hstop

theorem last_trimEnd (cs : List Char) : ∀ c ∈ (trimEnd cs).getLast?, isBlank c = false := by
  rw [trimEnd, List.getLast?_reverse]
  exact head_dropWhile cs.reverse

/-- What is trimmed at the end is white space. -/
theorem exists_trimEnd_append (cs : List Char) :
    ∃ after, AllBlank after ∧ cs = trimEnd cs ++ after :=
  ⟨cs.rtakeWhile isBlank, fun _ => List.mem_rtakeWhile_imp,
    List.rdropWhile_append_rtakeWhile.symm⟩

/-! ## White space at both ends -/

theorem trims_trim (cs : List Char) : Trims cs (trim cs) := by
  obtain ⟨after, hafter, hcs⟩ := exists_trimEnd_append (cs.dropWhile isBlank)
  refine ⟨⟨fun c hc => ?_, last_trimEnd _⟩, cs.takeWhile isBlank, after,
    fun _ => List.mem_takeWhile_imp, hafter, ?_⟩
  · -- the first character was the first one before the end was trimmed
    have hfirst : (trimEnd (cs.dropWhile isBlank)).head? = some c := hc
    refine head_dropWhile cs c ?_
    rw [hcs, List.head?_append, hfirst]
    rfl
  · rw [List.append_assoc, trim, ← hcs, List.takeWhile_append_dropWhile]

theorem trim_of_trims (h : Trims cs ds) : trim cs = ds := by
  obtain ⟨⟨hfirst, hlast⟩, before, after, hbefore, hafter, rfl⟩ := h
  rw [trim, List.append_assoc]
  cases ds with
  | nil =>
    have hall : AllBlank (before ++ after) := fun c hc =>
      (List.mem_append.mp hc).elim (hbefore c) (hafter c)
    rw [List.nil_append, List.dropWhile_eq_nil_iff.mpr hall]
    rfl
  | cons c rest =>
    rw [dropWhile_append hbefore (by simpa using hfirst), trimEnd_append hafter hlast]

/-- **Trimming takes all white space away at the ends**, and nothing else. -/
theorem trim_eq_iff : trim cs = ds ↔ Trims cs ds :=
  ⟨fun h => h ▸ trims_trim cs, trim_of_trims⟩

theorem trim_eq_nil_iff : trim cs = [] ↔ AllBlank cs := by
  rw [trim_eq_iff]
  constructor
  · rintro ⟨-, before, after, hbefore, hafter, rfl⟩ c hc
    rw [List.append_nil] at hc
    exact (List.mem_append.mp hc).elim (hbefore c) (hafter c)
  · intro h
    exact ⟨⟨by simp, by simp⟩, cs, [], h, by simp [AllBlank], by simp⟩

/-- Trimming takes no other characters away. -/
theorem Trims.mem_iff {c : Char} (h : Trims cs ds) (hc : isBlank c = false) : c ∈ cs ↔ c ∈ ds := by
  obtain ⟨-, before, after, hbefore, hafter, rfl⟩ := h
  have hother : ∀ {blanks : List Char}, AllBlank blanks → c ∉ blanks := by
    intro blanks hblanks hmem
    rw [hblanks c hmem] at hc
    exact absurd hc (by simp)
  simp [hother hbefore, hother hafter]

end Componentry.Text

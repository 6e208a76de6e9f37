import Componentry.Path
import Mathlib.Data.List.Infix

/-!
# Where paths lead that are put together

A path that is put under another one adds its own segments to it (`components_join`), unless it is
absolute: then it stands alone, and with several paths in a row the last absolute one forgets all
before it (`foldl_join_of_absolute`).

A `Layout` says where a file should be: some paths under a base make up its directory, and some more
the place in the directory.

* `Path.Within dir p`: the path begins with the segments of a directory and does not go up after
  them.
* `Layout.Descends`: none of the paths is absolute, and none below the directory goes up.

Results:
* `components_join`, `exists_components_join`: what a relative path adds.
* `components_of_not_mem`, `components_join_inj`: a text without slashes is one segment, and is
  found again under another path.
* **`Layout.within_iff`**: when the file of a layout is within its directory.
-/

namespace Componentry

namespace Path

/-- A path that starts at the root. -/
def IsAbsolute (p : Path) : Prop := p.toList.head? = some '/'

instance (p : Path) : Decidable p.IsAbsolute := inferInstanceAs (Decidable (_ = _))

/-- The segments that a relative path adds to one that it is put under. -/
def steps (p : Path) : List Segment :=
  ((Text.split '/' p.toList).filter fun part => !isVoid part).map segment

variable {b p : Path}

/-! ## Segments -/

theorem components_of_split {first : List Char} {rest : List (List Char)}
    (h : Text.split '/' p.toList = first :: rest) :
    p.components = firstSegment first rest ++
      (rest.filter fun part => !isVoid part).map segment := by
  unfold components
  rw [h]

/-- Only absolute paths have several parts of which the first is empty. -/
theorem first_ne_nil (hp : ¬ p.IsAbsolute) {first next : List Char} {rest : List (List Char)}
    (h : Text.split '/' p.toList = first :: next :: rest) : first ≠ [] := by
  rintro rfl
  have hglue := Text.glue_split '/' p.toList
  rw [h] at hglue
  exact hp (by rw [IsAbsolute, ← hglue]; rfl)

/-- A relative path has the segments that it adds, and perhaps a `.` in front of them. -/
theorem components_relative (hp : ¬ p.IsAbsolute) :
    p.components = p.steps ∨ p.components = .here :: p.steps := by
  match h : Text.split '/' p.toList with
  | [] => exact absurd h (Text.split_ne_nil '/' p.toList)
  | first :: rest =>
    rw [components_of_split h, steps, h]
    by_cases hempty : first = []
    · subst hempty
      cases rest with
      | nil => exact .inl rfl
      | cons next others => exact absurd rfl (first_ne_nil hp h)
    · by_cases hdot : first = ['.']
      · subst hdot
        exact .inr rfl
      · left
        have hvoid : isVoid first = false := by simp [isVoid, hempty, hdot]
        simp [firstSegment, hempty, hdot, hvoid]

theorem up_mem_steps_iff (hp : ¬ p.IsAbsolute) : .up ∈ p.steps ↔ .up ∈ p.components := by
  rcases components_relative hp with h | h
  · rw [h]
  · rw [h, List.mem_cons]
    exact ⟨.inr, fun h => h.resolve_left nofun⟩

/-! ## Joining -/

/-- What comes after a slash adds its segments. -/
theorem components_slash (b p : Path) :
    Path.components (b ++ "/" ++ p) = Path.components (b ++ "/") ++ p.steps := by
  match h : Text.split '/' b.toList with
  | [] => exact absurd h (Text.split_ne_nil '/' b.toList)
  | first :: rest =>
    have hlong : Text.split '/' (b ++ "/" ++ p).toList =
        first :: (rest ++ Text.split '/' p.toList) := by
      simp [Text.split_append, h]
    have hshort : Text.split '/' (b ++ "/").toList = first :: (rest ++ [[]]) := by
      simp [Text.split_append, h, Text.split]
    -- what the first part stands for depends on whether there are others, not on which
    have hfirst : firstSegment first (rest ++ Text.split '/' p.toList) =
        firstSegment first (rest ++ [[]]) := by
      simp [firstSegment, Text.split_ne_nil]
    rw [components_of_split hlong, components_of_split hshort, hfirst, steps]
    simp [isVoid]

/-- A slash at the end adds nothing. -/
theorem components_append_slash (hb : b ≠ "") :
    Path.components (b ++ "/") = b.components := by
  match h : Text.split '/' b.toList with
  | [] => exact absurd h (Text.split_ne_nil '/' b.toList)
  | first :: rest =>
    have hshort : Text.split '/' (b ++ "/").toList = first :: (rest ++ [[]]) := by
      simp [Text.split_append, h, Text.split]
    have hfirst : firstSegment first (rest ++ [[]]) = firstSegment first rest := by
      unfold firstSegment
      by_cases hempty : first = []
      · -- the slash would make a root of the empty path, but that is excluded
        have hrest : rest ≠ [] := by
          rintro rfl
          have hglue := Text.glue_split '/' b.toList
          rw [h, hempty] at hglue
          exact hb (String.toList_eq_nil_iff.mp hglue.symm)
        simp [hrest]
      · simp [hempty]
    rw [components_of_split hshort, components_of_split h, hfirst]
    simp [isVoid]

theorem join_of_absolute (hp : p.IsAbsolute) (b : Path) : b.join p = p := if_pos hp

theorem join_empty (p : Path) : Path.join "" p = p := by
  unfold join
  split
  · rfl
  · simp

theorem exists_eq_append_slash (h : b.toList.getLast? = some '/') :
    ∃ before : Path, b = before ++ "/" := by
  obtain ⟨before, hbefore⟩ := List.getLast?_eq_some_iff.mp h
  exact ⟨String.ofList before, String.toList_injective (by simpa using hbefore)⟩

/-- **A relative path adds its segments** to those of the path that it is put under. -/
theorem components_join (hb : b ≠ "") (hp : ¬ p.IsAbsolute) :
    (b.join p).components = b.components ++ p.steps := by
  have hnot : ¬ p.toList.head? = some '/' := hp
  unfold join
  rw [if_neg hnot]
  cases hlast : b.toList.getLast? with
  | none => exact absurd (String.toList_eq_nil_iff.mp (List.getLast?_eq_none_iff.mp hlast)) hb
  | some c =>
    rw [Option.getD_some]
    split
    · rename_i hc
      obtain ⟨before, rfl⟩ := exists_eq_append_slash (hc ▸ hlast)
      exact components_slash before p
    · rw [components_slash, components_append_slash hb]

theorem join_ne_empty (h : b ≠ "" ∨ p ≠ "") : b.join p ≠ "" := by
  unfold join
  split
  · rename_i hp
    rintro rfl
    simp at hp
  · split
    · simpa [← not_and_or] using h
    · simp

/-- What a relative path adds goes up if the path does, under an empty base too. -/
theorem exists_components_join (b : Path) (hp : ¬ p.IsAbsolute) :
    ∃ rest, (b.join p).components = b.components ++ rest ∧ (.up ∈ rest ↔ .up ∈ p.components) := by
  by_cases hb : b = ""
  · subst hb
    exact ⟨p.components, by rw [join_empty]; rfl, Iff.rfl⟩
  · exact ⟨p.steps, components_join hb hp, up_mem_steps_iff hp⟩

/-! ## Several paths in a row -/

variable {parts : List Path}

/-- The last absolute path forgets all before it. -/
theorem foldl_join_of_absolute (h : ∃ part ∈ parts, IsAbsolute part) (b : Path) :
    parts.foldl join b = parts.foldl join "" := by
  induction parts generalizing b with
  | nil => obtain ⟨_, hpart, -⟩ := h; exact absurd hpart List.not_mem_nil
  | cons p rest ih =>
    rw [List.foldl_cons, List.foldl_cons]
    by_cases hrest : ∃ part ∈ rest, IsAbsolute part
    · rw [ih hrest, ih hrest (join "" p)]
    · have hp : p.IsAbsolute := by
        obtain ⟨part, hpart, habsolute⟩ := h
        rcases List.mem_cons.mp hpart with rfl | hpart
        · exact habsolute
        · exact absurd ⟨part, hpart, habsolute⟩ hrest
      rw [join_of_absolute hp, join_of_absolute hp]

/-- Relative paths add their segments one after the other. -/
theorem components_foldl_join (hb : b ≠ "") (hparts : ∀ part ∈ parts, ¬ IsAbsolute part) :
    Path.components (parts.foldl join b) = b.components ++ parts.flatMap steps := by
  induction parts generalizing b with
  | nil => simp
  | cons p rest ih =>
    obtain ⟨hp, hrest⟩ := List.forall_mem_cons.mp hparts
    rw [List.foldl_cons, ih (join_ne_empty (.inl hb)) hrest, components_join hb hp,
      List.flatMap_cons, List.append_assoc]

theorem exists_components_foldl_join (b : Path) (hparts : ∀ part ∈ parts, ¬ IsAbsolute part) :
    ∃ rest, Path.components (parts.foldl join b) = b.components ++ rest ∧
      (.up ∈ rest ↔ ∃ part ∈ parts, .up ∈ Path.components part) := by
  induction parts generalizing b with
  | nil => exact ⟨[], by simp, by simp⟩
  | cons p rest ih =>
    obtain ⟨hp, hrest⟩ := List.forall_mem_cons.mp hparts
    obtain ⟨first, hfirst, hup⟩ := exists_components_join b hp
    obtain ⟨others, hothers, hups⟩ := ih (b.join p) hrest
    refine ⟨first ++ others, by rw [List.foldl_cons, hothers, hfirst, List.append_assoc], ?_⟩
    rw [List.mem_append, hup, hups]
    simp

/-! ## Texts without slashes -/

theorem not_absolute_of_not_mem (h : '/' ∉ p.toList) : ¬ p.IsAbsolute := fun habsolute =>
  h (List.mem_of_mem_head? habsolute)

theorem segment_injective : Function.Injective segment := by
  intro part other h
  unfold segment at h
  split at h <;> split at h
  · simp_all
  · cases h
  · cases h
  · simpa using congrArg String.toList (Segment.name.inj h)

theorem segment_ne_here (part : List Char) : segment part ≠ .here := by
  unfold segment
  split <;> nofun

theorem toList_eq_dot_iff : p.toList = ['.'] ↔ p = "." := by
  rw [← String.toList_inj]
  rfl

/-- A text without slashes adds itself, unless it is a dot. -/
theorem steps_of_not_mem (h : '/' ∉ p.toList) (hp : p ≠ "") :
    p.steps = if p = "." then [] else [segment p.toList] := by
  rw [steps, Text.split_eq_singleton h]
  by_cases hdot : p = "."
  · subst hdot
    rfl
  · simp [isVoid, hp, toList_eq_dot_iff, hdot]

/-- **A text without slashes is one segment**, if it is not empty. -/
theorem components_of_not_mem (h : '/' ∉ p.toList) (hp : p ≠ "") :
    p.components = if p = "." then [.here] else [segment p.toList] := by
  rw [components_of_split (Text.split_eq_singleton h), firstSegment,
    if_neg (mt String.toList_eq_nil_iff.mp hp)]
  simp only [toList_eq_dot_iff]
  split <;> rfl

/-- Only `..` goes up, among the texts without slashes. -/
theorem up_mem_components_iff (h : '/' ∉ p.toList) : .up ∈ p.components ↔ p = ".." := by
  by_cases hp : p = ""
  · subst hp
    decide
  · rw [components_of_not_mem h hp]
    constructor
    · intro hup
      split at hup
      · simp at hup
      · have hdots : segment p.toList = segment "..".toList := (List.mem_singleton.mp hup).symm
        exact String.toList_injective (segment_injective hdots)
    · rintro rfl
      decide

/-- **Texts without slashes are found again** in the path where they are put under another one. -/
theorem components_join_inj {q : Path} (b : Path) (hp : '/' ∉ p.toList) (hq : '/' ∉ q.toList)
    (hpe : p ≠ "") (hqe : q ≠ "") : (b.join p).components = (b.join q).components ↔ p = q := by
  refine ⟨fun h => ?_, fun h => h ▸ rfl⟩
  by_cases hb : b = ""
  · -- under nothing a dot is kept, and elsewhere it adds nothing
    subst hb
    rw [join_empty, join_empty, components_of_not_mem hp hpe, components_of_not_mem hq hqe] at h
    split_ifs at h with hpd hqd hqd
    · exact hpd.trans hqd.symm
    · exact absurd (List.singleton_inj.mp h).symm (segment_ne_here _)
    · exact absurd (List.singleton_inj.mp h) (segment_ne_here _)
    · exact String.toList_injective (segment_injective (List.singleton_inj.mp h))
  · rw [components_join hb (not_absolute_of_not_mem hp),
      components_join hb (not_absolute_of_not_mem hq)] at h
    have hsteps := List.append_cancel_left h
    rw [steps_of_not_mem hp hpe, steps_of_not_mem hq hqe] at hsteps
    split_ifs at hsteps with hpd hqd hqd
    · exact hpd.trans hqd.symm
    · exact String.toList_injective (segment_injective (List.singleton_inj.mp hsteps))

end Path

/-! ## Within a directory -/

/-- **A path lies within a directory**: it begins with the segments of the directory, and does not
go up after them. -/
def Path.Within (dir : List Segment) (p : Path) : Prop :=
  ∃ rest, p.components = dir ++ rest ∧ Segment.up ∉ rest

instance (dir : List Segment) (p : Path) : Decidable (p.Within dir) :=
  decidable_of_iff (dir <+: p.components ∧ Segment.up ∉ p.components.drop dir.length) <| by
    constructor
    · rintro ⟨⟨rest, hrest⟩, hup⟩
      refine ⟨rest, hrest.symm, ?_⟩
      rwa [← hrest, List.drop_left] at hup
    · rintro ⟨rest, hrest, hup⟩
      refine ⟨⟨rest, hrest.symm⟩, ?_⟩
      rwa [hrest, List.drop_left]

/-- Paths that are put under a base: some for a directory, and some more for a file in it. -/
structure Layout where
  base : Path
  directory : List Path
  place : List Path

namespace Layout

variable {l : Layout}

/-- All paths that are put under the base. -/
def parts (l : Layout) : List Path := l.directory ++ l.place

/-- The file, as the paths are put together. -/
def file (l : Layout) : Path := l.parts.foldl Path.join l.base

/-- The segments of the directory, as it is meant to be: those of the base, and then those that the
paths of the directory add. -/
def segments (l : Layout) : List Segment := l.base.components ++ l.directory.flatMap Path.steps

/-- No path is absolute, and none goes up from the directory. -/
structure Descends (l : Layout) : Prop where
  relative : ∀ part ∈ l.parts, ¬ Path.IsAbsolute part
  down : ∀ part ∈ l.place, Segment.up ∉ Path.components part

/-- Texts without slashes descend, if none of those below the directory is `..`. -/
theorem descends_of_not_mem (h : ∀ part ∈ l.parts, '/' ∉ part.toList)
    (hup : ".." ∉ l.place) : l.Descends where
  relative part hpart := Path.not_absolute_of_not_mem (h part hpart)
  down part hpart hmem := by
    have hflat := h part (List.mem_append_right l.directory hpart)
    exact hup ((Path.up_mem_components_iff hflat).mp hmem ▸ hpart)

/-- **Files of relative paths** lie within their directory if and only if no path goes up from
it. -/
theorem within_iff_of_relative (hbase : l.base ≠ "" ∨ l.directory = [])
    (h : ∀ part ∈ l.parts, ¬ Path.IsAbsolute part) :
    Path.Within l.segments l.file ↔ ∀ part ∈ l.place, Segment.up ∉ Path.components part := by
  obtain ⟨hdirectory, hplace⟩ := List.forall_mem_append.mp h
  have hcomponents : Path.components (l.directory.foldl Path.join l.base) = l.segments := by
    rcases hbase with hbase | hnone
    · exact Path.components_foldl_join hbase hdirectory
    · simp [segments, hnone]
  obtain ⟨rest, hrest, hup⟩ :=
    Path.exists_components_foldl_join (l.directory.foldl Path.join l.base) hplace
  have hfile : l.file.components = l.segments ++ rest := by
    rw [file, parts, List.foldl_append, hrest, hcomponents]
  have hdown : Segment.up ∉ rest ↔ ∀ part ∈ l.place, Segment.up ∉ Path.components part := by
    rw [hup]
    simp
  rw [← hdown]
  constructor
  · rintro ⟨other, hother, hnot⟩
    rwa [List.append_cancel_left (hfile.symm.trans hother)]
  · exact fun hnot => ⟨rest, hfile, hnot⟩

/-- **When the file of a layout is within its directory**: if no path is absolute and none goes up
from the directory. With an absolute path the base has no say, and the file may still happen to be
there. -/
theorem within_iff (hbase : l.base ≠ "" ∨ l.directory = []) :
    Path.Within l.segments l.file ↔ l.Descends ∨
      (∃ part ∈ l.parts, Path.IsAbsolute part) ∧
        Path.Within l.segments (l.parts.foldl Path.join "") := by
  by_cases h : ∃ part ∈ l.parts, Path.IsAbsolute part
  · have hnot : ¬ l.Descends := fun hdescends => by
      obtain ⟨part, hpart, habsolute⟩ := h
      exact hdescends.relative part hpart habsolute
    rw [file, Path.foldl_join_of_absolute h l.base]
    simp [hnot, h]
  · have hrelative : ∀ part ∈ l.parts, ¬ Path.IsAbsolute part := fun part hpart habsolute =>
      h ⟨part, hpart, habsolute⟩
    rw [within_iff_of_relative hbase hrelative]
    constructor
    · exact fun hdown => .inl ⟨hrelative, hdown⟩
    · rintro (hdescends | ⟨habsolute, -⟩)
      · exact hdescends.down
      · exact absurd habsolute h

end Layout

end Componentry

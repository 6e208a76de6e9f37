import Componentry.Proofs.Path.Layout
import Mathlib.Data.List.DropRight

/-!
# File names and what they are replaced by

The file name of a path is its last segment, if that is a proper name. A path whose file name is
replaced has the same segments in front of it, however it is written.

A name is cut at its last dot, unless that is its first character: `splitName_cases`. A text that is
put between stem and extension (`suffixed`) makes names of names, and no two names come out as one:
only a name with an extension can come out with one, and then the extension is found again after the
last dot.

* `IsName`: the texts that are segments and neither `.` nor `..`.

Results:
* `isName_of_fileName`, `components_of_fileName`: what a file name is, and where.
* **`components_withFileName`**: the path with another file name.
* **`suffixed_injective`**: a name is found again in the suffixed one.
-/

namespace Componentry.Path

variable {p : Path} {name : String}

/-! ## Names -/

/-- A proper name of a file or directory. -/
def IsName (name : String) : Prop := '/' ∉ name.toList ∧ name ∉ ["", ".", ".."]

instance (name : String) : Decidable (IsName name) := inferInstanceAs (Decidable (_ ∧ _))

theorem isName_iff {name : String} :
    IsName name ↔ '/' ∉ name.toList ∧ name.toList ∉ [[], ['.'], ['.', '.']] := by
  simp only [IsName, List.mem_cons, List.not_mem_nil, or_false, ← String.toList_inj]
  rfl

/-- A part that counts and does not go up is a name. -/
theorem isName_of_segment {part : List Char} (hslash : '/' ∉ part) (hvoid : isVoid part = false)
    (h : segment part = .name name) : IsName name := by
  unfold segment at h
  split at h
  · cases h
  · rename_i hdots
    obtain rfl := Segment.name.inj h
    simp only [isVoid, Bool.or_eq_false_iff, beq_eq_false_iff_ne, ne_eq] at hvoid
    refine ⟨by simpa using hslash, ?_⟩
    simp only [List.mem_cons, List.not_mem_nil, or_false, ← String.toList_inj, String.toList_ofList]
    exact not_or.mpr ⟨hvoid.1, not_or.mpr ⟨hvoid.2, hdots⟩⟩

theorem isName_of_mem_components (h : .name name ∈ p.components) : IsName name := by
  have hparts : ∀ part ∈ Text.split '/' p.toList, '/' ∉ part := fun part =>
    Text.not_mem_of_mem_split
  match hs : Text.split '/' p.toList with
  | [] => exact absurd hs (Text.split_ne_nil '/' p.toList)
  | first :: rest =>
    rw [hs] at hparts
    rw [components_of_split hs, List.mem_append] at h
    rcases h with h | h
    · unfold firstSegment at h
      split at h
      · split at h <;> simp at h
      · rename_i hempty
        split at h
        · simp at h
        · rename_i hdot
          refine isName_of_segment (hparts first List.mem_cons_self) ?_
            (List.mem_singleton.mp h).symm
          simp [isVoid, hempty, hdot]
    · obtain ⟨part, hpart, hname⟩ := List.mem_map.mp h
      obtain ⟨hmem, hvoid⟩ := List.mem_filter.mp hpart
      exact isName_of_segment (hparts part (List.mem_cons_of_mem first hmem)) (by simpa using hvoid)
        hname

/-- The file name is the last segment. -/
theorem components_of_fileName (h : p.fileName = some name) :
    p.components = p.components.dropLast ++ [.name name] := by
  unfold fileName at h
  split at h
  · rename_i text hlast
    obtain rfl := Option.some.inj h
    obtain ⟨before, hbefore⟩ := List.getLast?_eq_some_iff.mp hlast
    rw [hbefore, List.dropLast_concat]
  · cases h

theorem isName_of_fileName (h : p.fileName = some name) : IsName name := by
  refine isName_of_mem_components (p := p) ?_
  rw [components_of_fileName h]
  exact List.mem_append_right _ List.mem_cons_self

theorem fileName_of_components (before : List Segment) (h : p.components = before ++ [.name name]) :
    p.fileName = some name := by
  simp [fileName, h]

theorem IsName.segment_eq (h : IsName name) : segment name.toList = .name name := by
  rw [segment, if_neg, String.ofList_toList]
  intro hdots
  have hself : name = ".." := String.toList_injective hdots
  exact h.2 (by simp [hself])

theorem IsName.components_eq (h : IsName name) : Path.components name = [.name name] := by
  obtain ⟨hne, hdot, -⟩ : name ≠ "" ∧ name ≠ "." ∧ name ≠ ".." := by simpa using h.2
  rw [components_of_not_mem h.1 hne, if_neg hdot, h.segment_eq]

theorem IsName.steps_eq (h : IsName name) : Path.steps name = [.name name] := by
  obtain ⟨hne, hdot, -⟩ : name ≠ "" ∧ name ≠ "." ∧ name ≠ ".." := by simpa using h.2
  rw [steps_of_not_mem h.1 hne, if_neg hdot, h.segment_eq]

/-- A path is its own file name if it is a name. -/
theorem fileName_eq_self_iff : p.fileName = some p ↔ IsName p :=
  ⟨isName_of_fileName, fun h => fileName_of_components [] h.components_eq⟩

/-! ## The path without its file name -/

/-- The segments of parts after the first one. -/
def named (parts : List (List Char)) : List Segment :=
  (parts.filter fun part => !isVoid part).map segment

theorem named_concat (parts : List (List Char)) (part : List Char) :
    named (parts ++ [part]) =
      if isVoid part then named parts else named parts ++ [segment part] := by
  cases hvoid : isVoid part <;> simp [named, hvoid]

theorem dropVoidEnd_concat (parts : List (List Char)) (part : List Char) :
    dropVoidEnd (parts ++ [part]) = if isVoid part then dropVoidEnd parts else parts ++ [part] :=
  List.rdropWhile_concat isVoid parts part

/-- Parts at the end that stand for nothing add no segments. -/
theorem named_dropVoidEnd (parts : List (List Char)) : named (dropVoidEnd parts) = named parts := by
  induction parts using List.reverseRecOn with
  | nil => rfl
  | append_singleton parts part ih =>
    rw [dropVoidEnd_concat, named_concat]
    split
    · exact ih
    · rename_i hvoid
      rw [named_concat, if_neg hvoid]

/-- The last part that counts adds the last segment. -/
theorem named_dropLast_dropVoidEnd (parts : List (List Char)) :
    named (dropVoidEnd parts).dropLast = (named parts).dropLast := by
  induction parts using List.reverseRecOn with
  | nil => rfl
  | append_singleton parts part ih =>
    rw [dropVoidEnd_concat, named_concat]
    split
    · exact ih
    · rw [List.dropLast_concat, List.dropLast_concat]

theorem named_ne_nil {parts : List (List Char)} (h : dropVoidEnd parts ≠ []) :
    named parts ≠ [] := by
  have hlast : ¬ isVoid ((dropVoidEnd parts).getLast h) = true :=
    List.rdropWhile_last_not isVoid parts h
  rw [← named_dropVoidEnd, ← List.dropLast_append_getLast h, named_concat, if_neg hlast]
  simp

theorem mem_of_mem_dropVoidEnd {part : List Char} {parts : List (List Char)}
    (h : part ∈ dropVoidEnd parts) : part ∈ parts :=
  (List.rdropWhile_prefix isVoid parts).subset h

/-- The path whose parts are given. -/
theorem components_glue (first : List Char) (rest : List (List Char))
    (h : ∀ part ∈ first :: rest, '/' ∉ part) :
    Path.components (String.ofList (Text.glue '/' (first :: rest))) =
      firstSegment first rest ++ named rest :=
  components_of_split
    (by rw [String.toList_ofList, Text.split_glue (List.cons_ne_nil first rest) h])

/-- Without the last of several parts that count, the path has the segments of the other ones. -/
theorem components_parent_of_several {first : List Char} {rest : List (List Char)}
    (hs : Text.split '/' p.toList = first :: rest) (hrest : dropVoidEnd rest ≠ []) :
    ∃ dir, p.parent = some dir ∧
      Path.components dir = firstSegment first rest ++ (named rest).dropLast := by
  have hparts : ∀ part ∈ first :: rest, '/' ∉ part := fun part hpart =>
    Text.not_mem_of_mem_split (hs ▸ hpart)
  have hne : rest ≠ [] := by
    rintro rfl
    exact hrest rfl
  unfold parent
  rw [hs]
  match hlast : dropVoidEnd rest with
  | [] => exact absurd hlast hrest
  | last :: others =>
    have hkept : named (dropVoidEnd (last :: others).dropLast) = (named rest).dropLast := by
      rw [named_dropVoidEnd, ← hlast, named_dropLast_dropVoidEnd]
    rw [← hkept]
    match hparent : dropVoidEnd (last :: others).dropLast with
    | [] =>
      simp only [hlast, hparent]
      refine ⟨_, rfl, ?_⟩
      by_cases hempty : first = []
      · simpa [hempty, firstSegment, hne, named] using (by decide : Path.components "/" = [.root])
      · have hone := components_glue first []
          (by simpa using hparts first List.mem_cons_self)
        simpa [hempty, firstSegment, Text.glue] using hone
    | next :: kept =>
      simp only [hlast, hparent]
      refine ⟨_, rfl, ?_⟩
      rw [components_glue]
      · simp [firstSegment, hne]
      · refine List.forall_mem_cons.mpr ⟨hparts first List.mem_cons_self, fun part hpart => ?_⟩
        have hmem := List.mem_of_mem_dropLast (mem_of_mem_dropVoidEnd (hparent ▸ hpart))
        exact hparts part (List.mem_cons_of_mem first (mem_of_mem_dropVoidEnd (hlast ▸ hmem)))

/-- **The path without its file name** has the segments before it. -/
theorem components_parent (h : p.fileName = some name) :
    ∃ dir, p.parent = some dir ∧ Path.components dir = p.components.dropLast := by
  match hs : Text.split '/' p.toList with
  | [] => exact absurd hs (Text.split_ne_nil '/' p.toList)
  | first :: rest =>
    have hall : p.components = firstSegment first rest ++ named rest := components_of_split hs
    by_cases hrest : dropVoidEnd rest = []
    · -- the first part is the file name
      have hnamed : named rest = [] := by
        rw [← named_dropVoidEnd, hrest]
        rfl
      have hcomponents := components_of_fileName h
      rw [hall, hnamed, List.append_nil] at hcomponents ⊢
      unfold parent
      simp only [hs, hrest]
      unfold firstSegment at hcomponents ⊢
      split_ifs at hcomponents ⊢ with hempty hnone hdot
      · cases hcomponents
      · cases List.singleton_inj.mp hcomponents
      · cases List.singleton_inj.mp hcomponents
      · exact ⟨"", rfl, rfl⟩
    · rw [hall, List.dropLast_append_of_ne_nil (named_ne_nil hrest)]
      exact components_parent_of_several hs hrest

/-- **A path with another file name** has the segments before it, and then that name. -/
theorem components_withFileName {other : String} (h : p.fileName = some name)
    (hother : IsName other) :
    (p.withFileName other).components = p.components.dropLast ++ [.name other] := by
  obtain ⟨dir, hdir, hcomponents⟩ := components_parent h
  have hjoin : (join dir other).components = dir.components ++ [.name other] := by
    by_cases hempty : dir = ""
    · rw [hempty, join_empty, hother.components_eq]
      rfl
    · rw [components_join hempty (not_absolute_of_not_mem hother.1), hother.steps_eq]
  rw [withFileName, h, hdir, Option.getD_some, hjoin, hcomponents]

/-! ## Stem and extension -/

theorem lastDot_eq_none_iff : ∀ {cs : List Char}, lastDot cs = none ↔ '.' ∉ cs
  | [] => by simp [lastDot]
  | c :: rest => by
    have ih : lastDot rest = none ↔ '.' ∉ rest := lastDot_eq_none_iff
    rw [lastDot]
    split
    · rename_i h
      rw [h] at ih
      simpa using fun _ => ih
    · rename_i h
      simp only [h, true_iff] at ih
      by_cases hc : c = '.' <;> simp [hc, ih, eq_comm]

/-- The last dot is found by what comes after it. -/
theorem lastDot_append {after : List Char} (h : '.' ∉ after) : ∀ before : List Char,
    lastDot (before ++ '.' :: after) = some (before, after)
  | [] => by simp [lastDot, lastDot_eq_none_iff.mpr h]
  | c :: before => by rw [List.cons_append, lastDot, lastDot_append h before]

/-- A text is cut at its last dot. -/
theorem eq_of_lastDot : ∀ {cs before after : List Char}, lastDot cs = some (before, after) →
    cs = before ++ '.' :: after ∧ '.' ∉ after
  | c :: rest, before, after, h => by
    rw [lastDot] at h
    split at h
    · rename_i front back hrest
      obtain ⟨rfl, rfl⟩ := Prod.mk.inj (Option.some.inj h)
      obtain ⟨heq, hafter⟩ := eq_of_lastDot hrest
      exact ⟨congrArg (c :: ·) heq, hafter⟩
    · rename_i hrest
      split at h
      · rename_i hc
        obtain ⟨rfl, rfl⟩ := Prod.mk.inj (Option.some.inj h)
        exact ⟨by rw [hc]; rfl, lastDot_eq_none_iff.mp hrest⟩
      · cases h

/-- **A name with or without an extension.** Only its first character may be a dot if it has
none. -/
theorem splitName_cases (name : String) :
    splitName name = (name, none) ∧ '.' ∉ name.toList.tail ∨
      ∃ stem extension, splitName name = (stem, some extension) ∧ stem ≠ "" ∧
        '.' ∉ extension.toList ∧ name = stem ++ "." ++ extension := by
  unfold splitName
  match h : lastDot name.toList with
  | none => exact .inl ⟨rfl, mt List.mem_of_mem_tail (lastDot_eq_none_iff.mp h)⟩
  | some ([], after) =>
    obtain ⟨hname, hafter⟩ := eq_of_lastDot h
    exact .inl ⟨rfl, by rwa [hname, List.nil_append, List.tail_cons]⟩
  | some (c :: before, after) =>
    obtain ⟨hname, hafter⟩ := eq_of_lastDot h
    refine .inr ⟨_, _, rfl, by simp [← String.toList_inj], by simpa using hafter, ?_⟩
    exact String.toList_injective (by simpa using hname)

/-- A name with a text between stem and extension. -/
def suffixed (suffix name : String) : String :=
  match splitName name with
  | (stem, some extension) => stem ++ suffix ++ "." ++ extension
  | (stem, none) => stem ++ suffix

/-- Without an extension no name comes out as one with an extension: it would have to hold the
dot. -/
theorem suffixed_ne {a stem suffix extension : List Char} (ha : '.' ∉ a.tail) (hstem : stem ≠ []) :
    a ++ suffix ≠ stem ++ (suffix ++ '.' :: extension) := by
  intro h
  have hlength := congrArg List.length h
  have hcount := congrArg (List.count '.') h
  obtain ⟨c, stem', rfl⟩ := List.exists_cons_of_ne_nil hstem
  rcases List.append_eq_append_iff.mp h with ⟨middle, hmiddle, -⟩ | ⟨middle, rfl, -⟩
  · simp only [hmiddle, List.length_append, List.length_cons] at hlength
    omega
  · have hmem : '.' ∉ middle := fun hdot => ha (by simp [hdot])
    simp only [List.count_append, List.count_cons_self, List.count_eq_zero.mpr hmem] at hcount
    omega

/-- **No two names come out as one.** -/
theorem suffixed_injective (suffix : String) : Function.Injective (suffixed suffix) := by
  intro a b h
  have hdot : ".".toList = ['.'] := rfl
  unfold suffixed at h
  rcases splitName_cases a with ⟨ha, hnodot⟩ | ⟨stem, extension, ha, hstem, hext, rfl⟩ <;>
    rcases splitName_cases b with ⟨hb, hnodot'⟩ | ⟨stem', extension', hb, hstem', hext', rfl⟩ <;>
    simp only [ha, hb, ← String.toList_inj, String.toList_append] at h
  · exact String.toList_injective (List.append_cancel_right h)
  · exact absurd (by simpa using h) (suffixed_ne hnodot (mt String.toList_eq_nil_iff.mp hstem'))
  · exact absurd (by simpa using h.symm)
      (suffixed_ne hnodot' (mt String.toList_eq_nil_iff.mp hstem))
  · -- the extension is found after the last dot, and then the stem before the suffix
    have hlast := congrArg lastDot h
    simp only [hdot, List.append_assoc, List.singleton_append] at hlast
    rw [← List.append_assoc, ← List.append_assoc, lastDot_append hext, lastDot_append hext',
      Option.some.injEq, Prod.mk.injEq] at hlast
    rw [String.toList_injective (List.append_cancel_right hlast.1), String.toList_injective hlast.2]

/-- A name stays a name. -/
theorem IsName.suffixed {suffix name : String} (h : IsName name) (hsuffix : '/' ∉ suffix.toList) :
    IsName (Path.suffixed suffix name) := by
  unfold Path.suffixed
  rw [isName_iff] at h ⊢
  have hdot : ".".toList = ['.'] := rfl
  obtain ⟨hslash, hname⟩ := h
  rcases splitName_cases name with ⟨hs, -⟩ | ⟨stem, extension, hs, hstem, -, rfl⟩
  · simp only [hs, String.toList_append]
    refine ⟨by simp [hslash, hsuffix], ?_⟩
    -- what is put after a name is put after a character that is no dot, or after three characters
    match hchars : name.toList with
    | [] => simp [hchars] at hname
    | [c] => simp_all
    | [c, d] => simp_all
    | _ :: _ :: _ :: _ => simp
  · obtain ⟨c, rest, hchars⟩ := List.exists_cons_of_ne_nil (mt String.toList_eq_nil_iff.mp hstem)
    simp only [hs, String.toList_append, hchars, hdot] at hslash hname ⊢
    refine ⟨by simp_all, ?_⟩
    -- of two dots that come out, the one in front is the stem and the other one the separator
    intro hmem
    apply hname
    simp only [List.mem_cons, List.not_mem_nil, or_false, List.cons_append, List.append_assoc,
      reduceCtorEq, List.cons.injEq, List.append_eq_nil_iff, false_or, and_false] at hmem ⊢
    obtain ⟨rfl, hrest⟩ := hmem
    have hlength := congrArg List.length hrest
    simp only [List.length_append, List.length_cons, List.length_nil] at hlength
    have hfront : rest = [] := List.length_eq_zero_iff.mp (by omega)
    have hback : extension.toList = [] := List.length_eq_zero_iff.mp (by omega)
    simp [hfront, hback]

end Componentry.Path

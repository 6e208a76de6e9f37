/-!
# Texts cut at a separator

`split sep` cuts a text at every occurrence of a separator character, keeping empty pieces, so a
text with `n` separators has `n + 1` pieces. `glue sep` puts pieces together again with the
separator between them, and `glue_split` says that nothing is lost on the way. `split_glue` is the
other direction, for pieces that do not hold the separator themselves, and `splitOn_eq_iff` is both
of them for strings.
-/

namespace Componentry.Text

/-- The pieces of a text between the occurrences of `sep`. -/
def split (sep : Char) : List Char → List (List Char)
  | [] => [[]]
  | c :: rest =>
    if c = sep then [] :: split sep rest
    else match split sep rest with
      | [] => [[c]]
      | piece :: pieces => (c :: piece) :: pieces

/-- The pieces in order, `sep` between each two. -/
def glue (sep : Char) : List (List Char) → List Char
  | [] => []
  | [piece] => piece
  | piece :: pieces => piece ++ sep :: glue sep pieces

theorem split_ne_nil (sep : Char) (cs : List Char) : split sep cs ≠ [] := by
  cases cs with
  | nil => simp [split]
  | cons c rest =>
    rw [split]
    split
    · simp
    · split <;> simp

/-- Every text is its pieces glued together. -/
theorem glue_split (sep : Char) : ∀ cs : List Char, glue sep (split sep cs) = cs
  | [] => rfl
  | c :: rest => by
    have ih := glue_split sep rest
    rw [split]
    split
    · rename_i h
      subst h
      match hs : split c rest with
      | [] => exact absurd hs (split_ne_nil c rest)
      | piece :: pieces => rw [hs] at ih; simp [glue, ih]
    · match hs : split sep rest with
      | [] => exact absurd hs (split_ne_nil sep rest)
      | [piece] => rw [hs] at ih; simpa [glue] using ih
      | piece :: next :: pieces => rw [hs] at ih; simpa [glue] using ih

/-- No piece holds the separator. -/
theorem not_mem_of_mem_split {sep : Char} {piece : List Char} :
    ∀ {cs : List Char}, piece ∈ split sep cs → sep ∉ piece
  | [], h => by simp_all [split]
  | c :: rest, h => by
    rw [split] at h
    split at h
    · rcases List.mem_cons.mp h with rfl | h
      · simp
      · exact not_mem_of_mem_split h
    · rename_i hc
      match hs : split sep rest with
      | [] => exact absurd hs (split_ne_nil sep rest)
      | first :: others =>
        rw [hs] at h
        rcases List.mem_cons.mp h with rfl | h
        · have hfirst : sep ∉ first := not_mem_of_mem_split (hs ▸ List.mem_cons_self)
          simp [hfirst, Ne.symm hc]
        · exact not_mem_of_mem_split (hs ▸ List.mem_cons_of_mem first h)

/-- A text around a separator has the pieces of what is before and of what is after it. -/
theorem split_append (sep : Char) (after : List Char) : ∀ before : List Char,
    split sep (before ++ sep :: after) = split sep before ++ split sep after
  | [] => by simp [split]
  | c :: before => by
    rw [List.cons_append, split, split, split_append sep after before]
    split
    · rfl
    · match hs : split sep before with
      | [] => exact absurd hs (split_ne_nil sep before)
      | first :: others => rfl

/-- A text without separators is one piece. -/
theorem split_eq_singleton {sep : Char} : ∀ {cs : List Char}, sep ∉ cs → split sep cs = [cs]
  | [], _ => rfl
  | c :: rest, h => by
    obtain ⟨hc, hrest⟩ := not_or.mp (mt List.mem_cons.mpr h)
    rw [split, split_eq_singleton hrest, if_neg (Ne.symm hc)]

/-- Pieces without separators are found again once they are glued together. -/
theorem split_glue {sep : Char} : ∀ {pieces : List (List Char)}, pieces ≠ [] →
    (∀ piece ∈ pieces, sep ∉ piece) → split sep (glue sep pieces) = pieces
  | [piece], _, h => split_eq_singleton (h piece List.mem_cons_self)
  | piece :: next :: others, _, h => by
    have hrest := split_glue (List.cons_ne_nil next others)
      fun other hother => h other (List.mem_cons_of_mem piece hother)
    rw [glue, split_append, split_eq_singleton (h piece List.mem_cons_self), hrest]
    · rfl
    · simp

/-- The pieces of a string between the occurrences of `sep`. -/
def splitOn (sep : Char) (s : String) : List String := (split sep s.toList).map String.ofList

theorem toList_intercalate (sep : Char) : ∀ parts : List String,
    ((String.singleton sep).intercalate parts).toList = glue sep (parts.map String.toList)
  | [] => rfl
  | [part] => by simp [glue]
  | part :: next :: others => by
    rw [String.intercalate_cons_cons, String.toList_append, toList_intercalate sep (next :: others)]
    simp [glue]

/-- **Cutting a string undoes putting parts together**, and the other way round: its pieces are the
one list of strings without separators that it is put together from. -/
theorem splitOn_eq_iff {sep : Char} {s : String} {parts : List String} :
    splitOn sep s = parts ↔ parts ≠ [] ∧ (∀ part ∈ parts, sep ∉ part.toList) ∧
      s = (String.singleton sep).intercalate parts := by
  unfold splitOn
  constructor
  · rintro rfl
    refine ⟨by simpa using split_ne_nil sep s.toList, fun part hpart => ?_, ?_⟩
    · obtain ⟨piece, hpiece, rfl⟩ := List.mem_map.mp hpart
      simpa using not_mem_of_mem_split hpiece
    · have hsame : String.toList ∘ String.ofList = id := funext fun _ => String.toList_ofList
      apply String.toList_injective
      rw [toList_intercalate, List.map_map, hsame, List.map_id, glue_split]
  · rintro ⟨hne, hparts, rfl⟩
    have hpieces : ∀ piece ∈ parts.map String.toList, sep ∉ piece := by
      simpa using hparts
    have hsame : String.ofList ∘ String.toList = id := funext fun _ => String.ofList_toList
    rw [toList_intercalate, split_glue (by simpa using hne) hpieces, List.map_map, hsame,
      List.map_id]

/-- The strings in order with `", "` between each two. -/
def commaList (items : List String) : String := ", ".intercalate items

end Componentry.Text

import Componentry.Command.KeyValue
import Componentry.Proofs.Text.Trim

/-!
# Which texts write a pair

A text writes a pair of key and value if it is the two around an equals sign, with white space
around each of them. Neither has white space at its ends, and the key is not empty and holds no
equals sign, so that the first one of the text stands between them. A text writes one pair at most;
it is read as that pair, and every other text is refused.

* `Separates text before after`: what stands before and after the first equals sign.
* `Writes text key value`: the grammar of pairs.

Results:
* `cut_toList_eq_some_iff`: cutting finds the first equals sign.
* `parse_eq_ok_iff_trims`, `parse_eq_ok_iff`: reading by what it does, and by the grammar.
* `exists_parse_iff`, `parse_eq_error_iff`: which texts are read, and what is said of the others.
* `Writes.spread`: white space around key and value does not count.
* **`parse_exact`**: all of this together, and that pairs that were read are read again.
-/

namespace Componentry.Command.KeyValue

open Text

variable {text before after key value : String}

theorem equals_not_blank : isBlank '=' = false := rfl

/-! ## The first equals sign -/

/-- **What stands before and after the first equals sign** of a text. -/
def Separates (text before after : String) : Prop :=
  text = before ++ "=" ++ after ∧ '=' ∉ before.toList

theorem cut_append {key : List Char} (value : List Char) (hkey : '=' ∉ key) :
    cut (key ++ '=' :: value) = some (key, value) := by
  induction key with
  | nil => rfl
  | cons c rest ih =>
    obtain ⟨hc, hrest⟩ := not_or.mp (mt List.mem_cons.mpr hkey)
    rw [List.cons_append, cut, if_neg (Ne.symm hc), ih hrest]
    rfl

theorem eq_of_cut : ∀ {cs key value : List Char}, cut cs = some (key, value) →
    cs = key ++ '=' :: value ∧ '=' ∉ key
  | [], _, _, h => absurd h (by simp [cut])
  | c :: rest, _, _, h => by
    rw [cut] at h
    split at h
    · rename_i hc
      obtain ⟨rfl, rfl⟩ := Prod.mk.inj (Option.some.inj h)
      exact ⟨by rw [hc, List.nil_append], List.not_mem_nil⟩
    · rename_i hc
      obtain ⟨⟨key, value⟩, hcut, hpair⟩ := Option.map_eq_some_iff.mp h
      obtain ⟨rfl, rfl⟩ := Prod.mk.inj hpair
      obtain ⟨rfl, hplain⟩ := eq_of_cut hcut
      exact ⟨rfl, by simp [hplain, Ne.symm hc]⟩

/-- **Cutting finds the first equals sign.** -/
theorem cut_toList_eq_some_iff :
    cut text.toList = some (before.toList, after.toList) ↔ Separates text before after := by
  have hcut : cut text.toList = some (before.toList, after.toList) ↔
      text.toList = before.toList ++ '=' :: after.toList ∧ '=' ∉ before.toList :=
    ⟨eq_of_cut, fun ⟨htext, hbefore⟩ => htext ▸ cut_append after.toList hbefore⟩
  rw [hcut, Separates, ← String.toList_inj]
  simp

/-! ## Reading -/

/-- Reading cuts at the first equals sign and trims. -/
theorem parse_eq_ok_iff_trims :
    parse text = .ok (key, value) ↔ key ≠ "" ∧
      ∃ before after, Separates text before after ∧
        Trims before.toList key.toList ∧ Trims after.toList value.toList := by
  constructor
  · intro h
    rw [parse] at h
    split at h
    · rename_i cs ds hcut
      split at h
      · exact absurd h (by simp)
      · rename_i c rest htrim
        obtain ⟨rfl, rfl⟩ := Prod.mk.inj (Except.ok.inj h)
        refine ⟨fun hempty => ?_, String.ofList cs, String.ofList ds, ?_, ?_, ?_⟩
        · exact absurd (congrArg String.toList hempty) (by simp)
        · rw [← cut_toList_eq_some_iff, hcut, String.toList_ofList, String.toList_ofList]
        · rw [← trim_eq_iff, String.toList_ofList, String.toList_ofList, htrim]
        · rw [← trim_eq_iff, String.toList_ofList, String.toList_ofList]
    · exact absurd h (by simp)
  · rintro ⟨hne, before, after, hseparates, hkey, hvalue⟩
    have hcons : key.toList ≠ [] := fun hnil => hne (String.toList_injective hnil)
    obtain ⟨c, rest, hlist⟩ := List.exists_cons_of_ne_nil hcons
    rw [parse, cut_toList_eq_some_iff.mpr hseparates]
    simp only [trim_eq_iff.mpr hkey, trim_eq_iff.mpr hvalue, hlist]
    rw [← hlist, String.ofList_toList, String.ofList_toList]

/-- **A text writes a pair**: key and value stand around an equals sign, with white space around
each of them. The key is not empty and holds no equals sign. -/
structure Writes (text key value : String) : Prop where
  key_ne : key ≠ ""
  plain : '=' ∉ key.toList
  spaced : ∃ before after, text = before ++ "=" ++ after ∧
    Trims before.toList key.toList ∧ Trims after.toList value.toList

/-- **Reading accepts what the grammar allows**, and gives the pair that is written. -/
theorem parse_eq_ok_iff : parse text = .ok (key, value) ↔ Writes text key value := by
  rw [parse_eq_ok_iff_trims]
  constructor
  · rintro ⟨hne, before, after, ⟨htext, hfirst⟩, hkey, hvalue⟩
    exact ⟨hne, fun hmem => hfirst ((hkey.mem_iff equals_not_blank).mpr hmem),
      before, after, htext, hkey, hvalue⟩
  · rintro ⟨hne, hplain, before, after, htext, hkey, hvalue⟩
    exact ⟨hne, before, after,
      ⟨htext, fun hmem => hplain ((hkey.mem_iff equals_not_blank).mp hmem)⟩, hkey, hvalue⟩

/-- **Which texts are read**: those with an equals sign and something other than white space before
the first one. -/
theorem exists_parse_iff :
    (∃ pair, parse text = .ok pair) ↔
      ∃ before after, Separates text before after ∧ ¬ AllBlank before.toList := by
  constructor
  · rintro ⟨⟨key, value⟩, h⟩
    obtain ⟨hne, before, after, hseparates, hkey, -⟩ := parse_eq_ok_iff_trims.mp h
    refine ⟨before, after, hseparates, fun hblank => hne (String.toList_injective ?_)⟩
    rw [← trim_eq_iff.mpr hkey, trim_eq_nil_iff.mpr hblank]
    rfl
  · rintro ⟨before, after, hseparates, hblank⟩
    refine ⟨(String.ofList (trim before.toList), String.ofList (trim after.toList)), ?_⟩
    refine parse_eq_ok_iff_trims.mpr ⟨fun hempty => hblank ?_, before, after, hseparates, ?_, ?_⟩
    · rw [← trim_eq_nil_iff]
      simpa using congrArg String.toList hempty
    · rw [String.toList_ofList]
      exact trims_trim before.toList
    · rw [String.toList_ofList]
      exact trims_trim after.toList

/-- All other texts are named in the failure. -/
theorem parse_eq_error_iff {reason : String} :
    parse text = .error reason ↔
      reason = s!"expected key=value, got '{text}'" ∧ ¬ ∃ pair, parse text = .ok pair := by
  constructor
  · intro h
    refine ⟨?_, fun ⟨pair, hpair⟩ => absurd (h.symm.trans hpair) (by simp)⟩
    rw [parse] at h
    split at h
    · split at h
      · exact (Except.error.inj h).symm
      · exact absurd h (by simp)
    · exact (Except.error.inj h).symm
  · rintro ⟨rfl, hnone⟩
    rw [parse] at hnone ⊢
    split at hnone
    · split at hnone
      · rfl
      · exact absurd ⟨_, rfl⟩ hnone
    · rfl

/-- A pair that was read is read again with any white space around key and value. -/
theorem Writes.spread {a b c d : String} (h : Writes text key value) (ha : AllBlank a.toList)
    (hb : AllBlank b.toList) (hc : AllBlank c.toList) (hd : AllBlank d.toList) :
    Writes (a ++ key ++ b ++ "=" ++ (c ++ value ++ d)) key value := by
  obtain ⟨before, after, -, hkey, hvalue⟩ := h.spaced
  refine ⟨h.key_ne, h.plain, a ++ key ++ b, c ++ value ++ d, rfl, ?_, ?_⟩
  · exact ⟨hkey.1, a.toList, b.toList, ha, hb, by simp⟩
  · exact ⟨hvalue.1, c.toList, d.toList, hc, hd, by simp⟩

/-- **Reading pairs is exact.** A text is read iff it has an equals sign and something other than
white space before the first one, and it is read as the one pair that it writes; every other text is
named in the failure. The pair has what stands before the first equals sign and after it, trimmed,
so that the value keeps further ones and the key has none; put together again, with white space
around both, it is read as the same pair. White space is that of Unicode. -/
theorem parse_exact (text : String) :
    ((∃ pair, parse text = .ok pair) ↔
      ∃ before after, Separates text before after ∧ ¬ AllBlank before.toList) ∧
    (∀ key value, parse text = .ok (key, value) ↔ Writes text key value) ∧
    (∀ key value, parse text = .ok (key, value) →
      key ≠ "" ∧ '=' ∉ key.toList ∧ Trimmed key.toList ∧ Trimmed value.toList ∧
      (∃ before after, Separates text before after ∧
        Trims before.toList key.toList ∧ Trims after.toList value.toList) ∧
      ∀ a b c d : String, AllBlank a.toList → AllBlank b.toList → AllBlank c.toList →
        AllBlank d.toList → parse (a ++ key ++ b ++ "=" ++ (c ++ value ++ d)) = .ok (key, value)) ∧
    (∀ reason, parse text = .error reason ↔
      reason = s!"expected key=value, got '{text}'" ∧ ¬ ∃ pair, parse text = .ok pair) ∧
    ∀ c, isBlank c = true ↔ ∃ range ∈ whiteSpace, range.1 ≤ c.toNat ∧ c.toNat ≤ range.2 := by
  refine ⟨exists_parse_iff, fun _ _ => parse_eq_ok_iff, fun key value h => ?_,
    fun _ => parse_eq_error_iff, isBlank_iff⟩
  have hwrites : Writes text key value := parse_eq_ok_iff.mp h
  obtain ⟨hne, before, after, hseparates, hkey, hvalue⟩ := parse_eq_ok_iff_trims.mp h
  refine ⟨hne, hwrites.plain, hkey.1, hvalue.1, ⟨before, after, hseparates, hkey, hvalue⟩, ?_⟩
  intro a b c d ha hb hc hd
  exact parse_eq_ok_iff.mpr (hwrites.spread ha hb hc hd)

/-- A value with an equals sign, read with blanks around it and again with other white space. -/
theorem parse_exact_spaced :
    parse " a = b=c " = .ok ("a", "b=c") ∧
      parse ("\t" ++ "a" ++ "" ++ "=" ++ ("\u3000" ++ "b=c" ++ "\n")) = .ok ("a", "b=c") := by
  have hparse : parse " a = b=c " = .ok ("a", "b=c") := by rfl
  obtain ⟨-, -, hread, -⟩ := parse_exact " a = b=c "
  obtain ⟨-, -, -, -, -, hagain⟩ := hread "a" "b=c" hparse
  exact ⟨hparse, hagain "\t" "" "\u3000" "\n" (by decide) (by decide) (by decide) (by decide)⟩

end Componentry.Command.KeyValue

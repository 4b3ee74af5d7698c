import Mathlib.Data.List.Nodup
import RpcForge.Proofs.Naming
import RpcForge.Proofs.Text.Casing

/-!
# Names of parameters

Names of parameters and fields are words in a casing, with an underscore behind those that are
reserved. Reserved names are all avoided, but the casing is not one to one, and a name with an
underscore behind it can be that of something else.
-/

namespace RpcForge.Naming

open RpcForge.Text

/-! ## Words that are avoided -/

/-- Names stay apart where words are avoided: they differ from each other, and none of them is what
another one becomes for being such a word. -/
structure StaysApart (words names : List String) : Prop where
  /-- The names differ. -/
  nodup : names.Nodup
  /-- What takes the place of a word is not there. -/
  free : ∀ name ∈ names, name ∈ words → name ++ "_" ∉ names

instance (words names : List String) : Decidable (StaysApart words names) :=
  decidable_of_iff (names.Nodup ∧ ∀ name ∈ names, name ∈ words → name ++ "_" ∉ names)
    ⟨fun h ↦ ⟨h.1, h.2⟩, fun h ↦ ⟨h.nodup, h.free⟩⟩

variable {words : List String}

private theorem append_underscore_ne (name : String) : name ++ "_" ≠ name := by
  intro h
  simpa using congrArg String.length h

/-- Names become the same only if they are, or if one is what the other one becomes. -/
private theorem avoid_eq_avoid_iff (hw : ∀ word ∈ words, word ++ "_" ∉ words)
    (name other : String) :
    avoid words name = avoid words other ↔
      name = other ∨ (name ∈ words ∧ other = name ++ "_") ∨
        (other ∈ words ∧ name = other ++ "_") := by
  unfold avoid
  by_cases hn : name ∈ words
  · by_cases ho : other ∈ words
    · have hne : other ≠ name ++ "_" := fun he ↦ hw name hn (he ▸ ho)
      have hne' : name ≠ other ++ "_" := fun he ↦ hw other ho (he ▸ hn)
      simp [hn, ho, hne, hne']
    · have hne : name ≠ other := fun he ↦ ho (he ▸ hn)
      simp [hn, ho, hne, eq_comm]
  · by_cases ho : other ∈ words
    · have hne : name ≠ other := fun he ↦ hn (he ▸ ho)
      simp [hn, ho, hne]
    · simp [hn, ho]

/-- What names become differs exactly if they stay apart. -/
private theorem nodup_map_avoid_iff (hw : ∀ word ∈ words, word ++ "_" ∉ words)
    (names : List String) :
    (names.map (avoid words)).Nodup ↔ StaysApart words names := by
  constructor
  · intro hn
    refine ⟨hn.of_map _, fun name hm hword hu ↦ ?_⟩
    have he : avoid words (name ++ "_") = avoid words name :=
      (avoid_eq_avoid_iff hw _ _).mpr (.inr (.inr ⟨hword, rfl⟩))
    exact append_underscore_ne name (List.inj_on_of_nodup_map hn hu hm he)
  · intro h
    refine h.nodup.map_on fun name hm other ho he ↦ ?_
    rcases (avoid_eq_avoid_iff hw _ _).mp he with he | ⟨hword, rfl⟩ | ⟨hword, rfl⟩
    · exact he
    · exact absurd ho (h.free name hm hword)
    · exact absurd hm (h.free other ho hword)

/-- Nothing becomes a word that is avoided. -/
theorem avoid_not_mem (hw : ∀ word ∈ words, word ++ "_" ∉ words) (name : String) :
    avoid words name ∉ words := by
  unfold avoid
  by_cases hn : name ∈ words
  · simpa [hn] using hw name hn
  · simp [hn]

/-- Only the name itself becomes what is no word and takes the place of none. -/
theorem avoid_eq_iff {target : String} (ht : target ∉ words)
    (hu : ∀ word ∈ words, word ++ "_" ≠ target) (name : String) :
    avoid words name = target ↔ name = target := by
  unfold avoid
  by_cases hn : name ∈ words
  · have hne : name ≠ target := fun he ↦ ht (he ▸ hn)
    simp [hn, hne, hu name hn]
  · simp [hn]

private theorem isIdentifier_avoid {name : String} (h : IsIdentifier name) :
    IsIdentifier (avoid words name) := by
  unfold avoid
  split
  · exact h.append (by simp)
  · exact h

/-! ## Underscores in names -/

private theorem underscore_not_mem_sanitizeChars {text : List Char} (h : '_' ∉ text) :
    '_' ∉ sanitizeChars text := by
  have hf : '_' ∉ text.filter isNameChar := fun hm ↦ h (List.mem_filter.mp hm).1
  unfold sanitizeChars
  split
  · decide
  · next c cs he =>
    rw [he] at hf
    split
    · simpa using hf
    · exact hf

/-- Where nothing has to be dropped, a sanitized text has underscores at an end or in a row only if
the text has. -/
private theorem tight_sanitizeChars {text : List Char} (hf : ∀ c ∈ text, isNameChar c = true)
    (h : Tight '_' text) : Tight '_' (sanitizeChars text) := by
  rw [sanitizeChars, List.filter_eq_self.mpr hf]
  cases text with
  | nil => exact ⟨by decide, by decide, by decide⟩
  | cons c cs =>
    by_cases hc : c.isDigit = true
    · have hi : ¬['_', '_'] <:+: 'n' :: c :: cs := by
        rw [List.infix_cons_iff, List.cons_prefix_cons, not_or]
        exact ⟨fun hp ↦ absurd hp.1 (by decide), h.inner⟩
      refine ⟨by simp [hc], by simpa [hc] using h.last, ?_⟩
      simpa [hc] using hi
    · simpa [hc] using h

/-- A name like `mathApi` has no underscore. -/
private theorem underscore_not_mem_camel (text : String) : '_' ∉ (camel text).toList := by
  rw [camel, cased, String.toList_ofList]
  refine underscore_not_mem_sanitizeChars fun hm ↦ ?_
  have hc := forall_mem_joinCamel (fun word hw c hc ↦ (forall_mem_words hw c hc).2) '_' hm
  simp at hc

/-- All characters of a text are ASCII characters. -/
def IsAscii (text : String) : Prop :=
  ∀ c ∈ text.toList, isAscii c = true

private theorem isAscii_of_isAlphanum {c : Char} (h : c.isAlphanum = true) : isAscii c = true := by
  unfold Char.isAlphanum Char.isAlpha Char.isUpper Char.isLower Char.isDigit at h
  rw [isAscii, decide_eq_true_eq]
  simp only [Bool.or_eq_true, Bool.and_eq_true, decide_eq_true_eq, ge_iff_le,
    UInt32.le_iff_toNat_le, Char.toNat_val] at h
  simp at h
  omega

/-- Sanitized texts are ASCII texts. -/
theorem isAscii_sanitize (text : String) : IsAscii (sanitize text) := by
  intro c hc
  rcases (isIdentifier_sanitizeChars _).forall_mem c hc with ha | rfl
  · exact isAscii_of_isAlphanum ha
  · decide

/-- A name like `math_api` that is made from an ASCII text has single underscores between its
words. -/
theorem tight_snake {text : String} (h : IsAscii text) : Tight '_' (snake text).toList := by
  have hw : ∀ word ∈ Text.words text.toList, ∀ c ∈ word, isAlphanumeric c = true :=
    fun _ hm c hc ↦ (forall_mem_words hm c hc).2
  have hs := forall_mem_joinSnake hw
  rw [snake, cased, String.toList_ofList]
  exact tight_sanitizeChars (fun c hc ↦ (isNameChar_iff c).mpr (hs c hc)) (tight_joinSnake h)

theorem avoid_of_mem {name : String} (h : name ∈ words) :
    avoid words name = name ++ "_" := by
  rw [avoid, if_pos (List.contains_iff_mem.mpr h)]

private theorem avoid_of_not_mem {name : String} (h : name ∉ words) :
    avoid words name = name := by
  rw [avoid, if_neg (mt List.contains_iff_mem.mp h)]

/-- Behind a name with single underscores one more makes no two in a row. -/
private theorem not_infix_append_underscore {name : List Char} (h : Tight '_' name) :
    ¬['_', '_'] <:+: name ++ ['_'] := by
  rw [List.infix_concat_iff, not_or]
  refine ⟨fun hs ↦ ?_, h.inner⟩
  obtain ⟨front, he⟩ := hs
  have hl : front ++ ['_'] = name := List.append_cancel_right ((List.append_assoc _ _ _).trans he)
  exact h.last (by rw [← hl, List.getLast?_concat])

/-- Where words are avoided, names with single underscores get one at the end, and only these
words do. -/
theorem avoid_underscores (words : List String) {name : String} (hn : name ≠ "")
    (h : Tight '_' name.toList) :
    (avoid words name).toList.head? ≠ some '_' ∧ ¬['_', '_'] <:+: (avoid words name).toList ∧
      ((avoid words name).toList.getLast? = some '_' → name ∈ words) := by
  by_cases hw : name ∈ words
  · obtain ⟨c, cs, hc⟩ := List.exists_cons_of_ne_nil (mt String.toList_eq_nil_iff.mp hn)
    rw [avoid_of_mem hw, String.toList_append]
    refine ⟨?_, not_infix_append_underscore h, fun _ ↦ hw⟩
    simpa [hc] using h.head
  · rw [avoid_of_not_mem hw]
    exact ⟨h.head, h.inner, fun he ↦ absurd he h.last⟩

/-- Names like `math_api` that are made from ASCII texts stay apart as soon as they differ. -/
theorem staysApart_snake_iff_of_ascii {texts : List String} (h : ∀ text ∈ texts, IsAscii text) :
    StaysApart words (texts.map snake) ↔ (texts.map snake).Nodup := by
  refine ⟨StaysApart.nodup, fun hn ↦ ⟨hn, fun name _ _ hm ↦ ?_⟩⟩
  obtain ⟨text, ht, he⟩ := List.mem_map.mp hm
  exact (tight_snake (h text ht)).last (by simp [he])

/-! ## Parameters in Python -/

/-- What a generated Python parameter is never called. -/
def pythonAvoided : List String := pythonKeywords ++ pythonBoundNames

private theorem append_underscore_not_mem_pythonAvoided :
    ∀ word ∈ pythonAvoided, word ++ "_" ∉ pythonAvoided := by decide +kernel

theorem pythonIdentifier_eq (text : String) :
    pythonIdentifier text = avoid pythonAvoided (snake text) := by
  rw [pythonIdentifier, pythonAvoided]

theorem isIdentifier_pythonIdentifier (text : String) : IsIdentifier (pythonIdentifier text) := by
  rw [pythonIdentifier_eq]
  exact isIdentifier_avoid (isIdentifier_cased _ _)

theorem pythonIdentifier_not_mem (text : String) : pythonIdentifier text ∉ pythonAvoided := by
  rw [pythonIdentifier_eq]
  exact avoid_not_mem append_underscore_not_mem_pythonAvoided _

theorem nodup_map_pythonIdentifier_iff (texts : List String) :
    (texts.map pythonIdentifier).Nodup ↔ StaysApart pythonAvoided (texts.map snake) := by
  have he : texts.map pythonIdentifier = (texts.map snake).map (avoid pythonAvoided) := by
    simp only [List.map_map, Function.comp_def, ← pythonIdentifier_eq]
  rw [he, nodup_map_avoid_iff append_underscore_not_mem_pythonAvoided]

/-! ## Parameters in TypeScript -/

theorem append_underscore_not_mem_typeScriptReserved :
    ∀ word ∈ typeScriptReserved, word ++ "_" ∉ typeScriptReserved := by decide +kernel

theorem isIdentifier_typeScriptIdentifier (text : String) :
    IsIdentifier (typeScriptIdentifier text) := by
  rw [typeScriptIdentifier]
  exact isIdentifier_avoid (isIdentifier_cased _ _)

private theorem typeScriptIdentifier_inj {text other : String} :
    typeScriptIdentifier text = typeScriptIdentifier other ↔ camel text = camel other := by
  have hu (text other : String) : camel text ≠ camel other ++ "_" := by
    intro he
    exact underscore_not_mem_camel text (by simp [he])
  rw [typeScriptIdentifier, typeScriptIdentifier,
    avoid_eq_avoid_iff append_underscore_not_mem_typeScriptReserved]
  simp [hu]

theorem nodup_map_typeScriptIdentifier_iff (texts : List String) :
    (texts.map typeScriptIdentifier).Nodup ↔ (texts.map camel).Nodup := by
  simp only [List.Nodup, List.pairwise_map, ne_eq, typeScriptIdentifier_inj]

end RpcForge.Naming

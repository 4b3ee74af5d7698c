import RpcForge.Proofs.Client.ParameterNames
import RpcForge.Proofs.Naming.Distinct

/-!
# Texts that are names

Which texts are names already: sanitizing keeps just these as they are. All other texts become names
by it, and so do their words in whatever casing, also after reserved words are avoided.
-/

namespace RpcForge.Naming

/-- Sanitizing keeps identifiers and changes everything else. -/
private theorem sanitize_eq_self_iff (text : String) :
    sanitize text = text ↔ IsIdentifier text := by
  constructor
  · intro h
    rw [← h]
    exact isIdentifier_sanitizeChars _
  · intro h
    have hf : text.toList.filter isNameChar = text.toList :=
      List.filter_eq_self.mpr fun c hc ↦ (isNameChar_iff c).mpr (h.forall_mem c hc)
    obtain ⟨c, cs, ht, hc, -⟩ := h
    have hd : c.isDigit = false := by
      rcases hc with ha | rfl
      · exact isDigit_eq_false_of_isAlpha ha
      · rfl
    have hs : sanitizeChars text.toList = text.toList := by
      rw [sanitizeChars, hf, ht]
      simp [hd]
    rw [sanitize, hs, String.ofList_toList]

instance (text : String) : Decidable (IsIdentifier text) :=
  decidable_of_iff (sanitize text = text) (sanitize_eq_self_iff text)

private theorem isIdentifier_sanitize (text : String) : IsIdentifier (sanitize text) :=
  isIdentifier_sanitizeChars _

/-- A text is made a name in one go. -/
private theorem sanitize_sanitize (text : String) : sanitize (sanitize text) = sanitize text :=
  (sanitize_eq_self_iff _).mpr (isIdentifier_sanitize text)

/-! ## Names with something behind them -/

/-- What may stand in a name makes no difference behind one that is not empty. -/
private theorem isIdentifier_append_iff {name suffix : String} (hn : name ≠ "")
    (hs : ∀ d ∈ suffix.toList, d.isAlphanum = true ∨ d = '_') :
    IsIdentifier (name ++ suffix) ↔ IsIdentifier name := by
  constructor
  · rintro ⟨c, cs, he, hc, hcs⟩
    obtain ⟨d, ds, hd⟩ := List.exists_cons_of_ne_nil (mt String.toList_eq_nil_iff.mp hn)
    rw [String.toList_append, hd, List.cons_append] at he
    obtain ⟨rfl, rfl⟩ := List.cons.inj he
    exact ⟨d, ds, hd, hc, fun e hm ↦ hcs e (List.mem_append_left _ hm)⟩
  · exact fun h ↦ h.append hs

/-- Where a name is made distinct, it is an identifier exactly if it was one. -/
theorem MadeFrom.isIdentifier_iff {name given : String} (h : MadeFrom name given)
    (hn : name ≠ "") : IsIdentifier given ↔ IsIdentifier name := by
  cases h with
  | kept => rfl
  | numbered k =>
    rw [Naming.numbered, String.append_assoc]
    refine isIdentifier_append_iff hn fun d hd ↦ ?_
    rw [String.toList_append] at hd
    rcases List.mem_append.mp hd with hd | hd
    · exact .inr (by simpa using hd)
    · rw [Nat.toString_eq_ofList_toDigits, String.toList_ofList] at hd
      have hk : d.isDigit = true := Nat.isDigit_of_mem_toDigits (by decide) (by decide) hd
      exact .inl (by simp [Char.isAlphanum, hk])

/-! ## All ways to make names -/

theorem typeScriptIdentifier_not_mem (text : String) :
    typeScriptIdentifier text ∉ typeScriptReserved :=
  avoid_not_mem append_underscore_not_mem_typeScriptReserved _

/-- Every text becomes an identifier in every way in which texts become names. What is reserved is
no name of a parameter, and sanitizing a name again does not change it. -/
theorem names_of_text (text : String) :
    (∀ name ∈ [sanitize text, pascal text, camel text, snake text, shouty text,
        pythonIdentifier text, typeScriptIdentifier text], IsIdentifier name) ∧
      pythonIdentifier text ∉ pythonKeywords ∧ pythonIdentifier text ∉ pythonBoundNames ∧
      typeScriptIdentifier text ∉ typeScriptReserved ∧
      sanitize (sanitize text) = sanitize text := by
  have hp : pythonIdentifier text ∉ pythonKeywords ∧ pythonIdentifier text ∉ pythonBoundNames :=
    not_or.mp (List.mem_append.not.mp (pythonIdentifier_not_mem text))
  refine ⟨?_, hp.1, hp.2, typeScriptIdentifier_not_mem text, sanitize_sanitize text⟩
  simp only [List.forall_mem_cons]
  exact ⟨isIdentifier_sanitize text, isIdentifier_cased _ _, isIdentifier_cased _ _,
    isIdentifier_cased _ _, isIdentifier_cased _ _, isIdentifier_pythonIdentifier text,
    isIdentifier_typeScriptIdentifier text, nofun⟩

end RpcForge.Naming

import RpcForge.Client.Plan

/-!
# The form of names

Whatever text a name is made from, it is an identifier of ASCII characters.
-/

namespace RpcForge.Naming

/-- An identifier: an ASCII letter or an underscore, and behind it ASCII letters, digits and
underscores. -/
def IsIdentifier (text : String) : Prop :=
  ∃ c cs, text.toList = c :: cs ∧ (c.isAlpha = true ∨ c = '_') ∧
    ∀ d ∈ cs, d.isAlphanum = true ∨ d = '_'

/-- A character may stand in a name if it is an ASCII letter, a digit or an underscore. -/
theorem isNameChar_iff (c : Char) : isNameChar c = true ↔ c.isAlphanum = true ∨ c = '_' := by
  simp [isNameChar]

theorem isDigit_eq_false_of_isAlpha {c : Char} (h : c.isAlpha = true) : c.isDigit = false := by
  unfold Char.isAlpha Char.isUpper Char.isLower at h
  rw [Bool.eq_false_iff, ne_eq, Char.isDigit_iff_toNat]
  simp only [Bool.or_eq_true, Bool.and_eq_true, decide_eq_true_eq, ge_iff_le,
    UInt32.le_iff_toNat_le, Char.toNat_val] at h
  simp at h ⊢
  omega

/-- Names of sanitized characters are identifiers. -/
theorem isIdentifier_sanitizeChars (text : List Char) :
    IsIdentifier (String.ofList (sanitizeChars text)) := by
  unfold sanitizeChars IsIdentifier
  rw [String.toList_ofList]
  cases hf : text.filter isNameChar with
  | nil => exact ⟨'m', "ethod".toList, rfl, .inl (by decide), by simp⟩
  | cons c cs =>
    have hm : ∀ d ∈ c :: cs, d.isAlphanum = true ∨ d = '_' := by
      intro d hd
      exact (isNameChar_iff d).mp (List.mem_filter.mp (hf ▸ hd)).2
    by_cases hc : c.isDigit = true
    · simp only [hc, if_true]
      exact ⟨'n', _, rfl, .inl (by decide), hm⟩
    · simp only [hc]
      refine ⟨c, cs, rfl, ?_, fun d hd ↦ hm d (.tail _ hd)⟩
      simpa [Char.isAlphanum, hc] using hm c (.head _)

/-- A text in a casing of its words is an identifier, whatever the text is. -/
theorem isIdentifier_cased (join : List (List Char) → List Char) (text : String) :
    IsIdentifier (cased join text) :=
  isIdentifier_sanitizeChars _

/-- An identifier stays one with such characters behind it. -/
theorem IsIdentifier.append {name suffix : String} (h : IsIdentifier name)
    (hs : ∀ d ∈ suffix.toList, d.isAlphanum = true ∨ d = '_') : IsIdentifier (name ++ suffix) := by
  obtain ⟨c, cs, hn, hc, hcs⟩ := h
  refine ⟨c, cs ++ suffix.toList, by simp [hn], hc, ?_⟩
  intro d hd
  rcases List.mem_append.mp hd with hd | hd
  · exact hcs d hd
  · exact hs d hd

/-- Every character of an identifier may stand in a name. -/
theorem IsIdentifier.forall_mem {name : String} (h : IsIdentifier name) :
    ∀ d ∈ name.toList, d.isAlphanum = true ∨ d = '_' := by
  obtain ⟨c, cs, hn, hc, hcs⟩ := h
  intro d hd
  rw [hn] at hd
  rcases List.mem_cons.mp hd with rfl | hd
  · exact hc.imp (fun ha ↦ by simp [Char.isAlphanum, ha]) id
  · exact hcs d hd

end RpcForge.Naming

namespace RpcForge.Plan

/-- The name of a package is an identifier, whatever the title is. -/
theorem isIdentifier_packageName (plan : Plan) : Naming.IsIdentifier plan.packageName :=
  (Naming.isIdentifier_cased _ _).append (by simp)

end RpcForge.Plan

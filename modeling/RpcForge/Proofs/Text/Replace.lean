import Mathlib.Data.List.Infix
import RpcForge.Text.Pieces

/-!
# Replaced parts

Putting other text in place of a part, said of the characters of a text.
-/

namespace RpcForge.Text

theorem toList_replace {old : String} (h : old.isEmpty = false) (text new : String) :
    (replace text old new).toList = replaceFrom old.toList new.toList 0 text.toList := by
  rw [replace, h, if_neg Bool.false_ne_true, String.toList_ofList]

theorem replaceFrom_occurrence {old new cs : List Char} {c : Char}
    (h : old.isPrefixOf (c :: cs) = true) :
    replaceFrom old new 0 (c :: cs) = new ++ replaceFrom old new (old.length - 1) cs := by
  rw [replaceFrom, if_pos h]

theorem replaceFrom_elsewhere {old new cs : List Char} {c : Char}
    (h : old.isPrefixOf (c :: cs) = false) :
    replaceFrom old new 0 (c :: cs) = c :: replaceFrom old new 0 cs := by
  rw [replaceFrom, if_neg (Bool.eq_false_iff.mp h)]

/-- What still belongs to an occurrence is passed over. -/
private theorem replaceFrom_length_append (old new front cs : List Char) :
    replaceFrom old new front.length (front ++ cs) = replaceFrom old new 0 cs := by
  induction front with
  | nil => rfl
  | cons c front ih => exact ih

theorem replaceFrom_self_append {old : List Char} (hne : old ≠ []) (new cs : List Char) :
    replaceFrom old new 0 (old ++ cs) = new ++ replaceFrom old new 0 cs := by
  cases old with
  | nil => exact absurd rfl hne
  | cons c old =>
    have hp : (c :: old).isPrefixOf (c :: (old ++ cs)) = true :=
      List.isPrefixOf_iff_prefix.mpr (List.prefix_append (c :: old) cs)
    rw [List.cons_append, replaceFrom_occurrence hp]
    exact congrArg _ (replaceFrom_length_append _ _ old cs)

/-- What stands in a text after replacing stood there before or was put there. -/
theorem mem_replaceFrom {old new cs : List Char} {c : Char} {skip : Nat}
    (h : c ∈ replaceFrom old new skip cs) : c ∈ cs ∨ c ∈ new := by
  induction cs generalizing skip with
  | nil =>
    cases skip <;> cases h
  | cons d cs ih =>
    cases skip with
    | succ skip => exact (ih h).imp_left (.tail _)
    | zero =>
      cases hp : old.isPrefixOf (d :: cs) with
      | true =>
        rw [replaceFrom_occurrence hp] at h
        rcases List.mem_append.mp h with h | h
        · exact .inr h
        · exact (ih h).imp_left (.tail _)
      | false =>
        rw [replaceFrom_elsewhere hp] at h
        rcases List.mem_cons.mp h with rfl | h
        · exact .inl (.head _)
        · exact (ih h).imp_left (.tail _)

/-- Something stays something if nothing is replaced by nothing. -/
theorem isEmpty_replaceFrom (old : List Char) {new : List Char} (h : new ≠ []) (cs : List Char) :
    (replaceFrom old new 0 cs).isEmpty = cs.isEmpty := by
  cases cs with
  | nil => rfl
  | cons c cs =>
    cases hp : old.isPrefixOf (c :: cs) with
    | true => simp [replaceFrom_occurrence hp, h]
    | false => rw [replaceFrom_elsewhere hp, List.isEmpty_cons, List.isEmpty_cons]

/-- One character is replaced wherever it occurs. -/
theorem replaceFrom_singleton (old : Char) (new cs : List Char) :
    replaceFrom [old] new 0 cs = cs.flatMap fun c ↦ if c = old then new else [c] := by
  induction cs with
  | nil => rfl
  | cons c cs ih =>
    rw [List.flatMap_cons, ← ih]
    by_cases hc : c = old
    · rw [replaceFrom_occurrence (by simp [hc]), if_pos hc]
      rfl
    · have hp : [old].isPrefixOf (c :: cs) = false := by simp [List.isPrefixOf, Ne.symm hc]
      rw [replaceFrom_elsewhere hp, if_neg hc, List.singleton_append]

end RpcForge.Text

import RpcForge.Proofs.Text.Lines
import RpcForge.Proofs.Text.Replace

/-!
# Escaping line by line

Escaping that neither removes nor adds a blank, and that does not reach over one, goes along with
everything that is done to the blanks of a text: the lines of an escaped text are the lines of the
text, each escaped. Putting one text in place of another one escapes in this way if neither of the
two has a blank.
-/

namespace RpcForge.Text

/-- Escaping leaves all blanks where they are. -/
structure KeepsBlanks (escape : List Char → List Char) : Prop where
  /-- What stands on the two sides of a blank is escaped apart. -/
  around : ∀ {c : Char}, isBlank c = true → ∀ front back,
    escape (front ++ c :: back) = escape front ++ c :: escape back
  /-- A blank in what is escaped was there before. -/
  mem : ∀ {c : Char} {cs : List Char}, c ∈ escape cs → isBlank c = true → c ∈ cs
  /-- Only nothing is escaped by nothing. -/
  isEmpty : ∀ cs, (escape cs).isEmpty = cs.isEmpty

/-! ## Replacing -/

/-- What stands on the two sides of a character that is not replaced is replaced apart. -/
private theorem replaceFrom_append_cons {old : List Char} {c : Char} (hne : old ≠ []) (hc : c ∉ old)
    (new : List Char) {skip : Nat} {front : List Char} (hs : skip ≤ front.length)
    (back : List Char) :
    replaceFrom old new skip (front ++ c :: back) =
      replaceFrom old new skip front ++ c :: replaceFrom old new 0 back := by
  induction front generalizing skip with
  | nil =>
    obtain rfl := Nat.le_zero.mp hs
    have hp : old.isPrefixOf (c :: back) = false := by
      rw [← List.nil_append (c :: back), isPrefixOf_append_cons hc]
      cases old with
      | nil => exact absurd rfl hne
      | cons d old => rfl
    exact replaceFrom_elsewhere hp
  | cons d front ih =>
    cases skip with
    | succ skip => exact ih (Nat.le_of_succ_le_succ hs)
    | zero =>
      have hp := isPrefixOf_append_cons hc (d :: front) back
      rw [List.cons_append] at hp ⊢
      cases hd : old.isPrefixOf (d :: front) with
      | true =>
        have hl : old.length - 1 ≤ front.length :=
          Nat.sub_le_of_le_add (List.isPrefixOf_iff_prefix.mp hd).length_le
        rw [replaceFrom_occurrence (hp.trans hd), ih hl, replaceFrom_occurrence hd,
          List.append_assoc]
      | false =>
        rw [replaceFrom_elsewhere (hp.trans hd), ih (Nat.zero_le _), replaceFrom_elsewhere hd,
          List.cons_append]

/-- Text without blanks in place of text without blanks. -/
theorem keepsBlanks_replaceFrom {old new : List Char} (ho : old ≠ []) (hn : new ≠ [])
    (hb : old.any isBlank = false) (hb' : new.any isBlank = false) :
    KeepsBlanks (replaceFrom old new 0) where
  around hc _ back :=
    replaceFrom_append_cons ho (fun hm ↦ List.any_eq_false.mp hb _ hm hc) new (Nat.zero_le _) back
  mem hm hc := (mem_replaceFrom hm).resolve_right fun hm ↦ List.any_eq_false.mp hb' _ hm hc
  isEmpty := isEmpty_replaceFrom old hn

namespace KeepsBlanks

variable {escape : List Char → List Char} (h : KeepsBlanks escape)

include h

/-- Escaping twice. -/
theorem comp {again : List Char → List Char} (h' : KeepsBlanks again) :
    KeepsBlanks fun cs ↦ again (escape cs) where
  around hc front back := by rw [h.around hc, h'.around hc]
  mem hm hc := h.mem (h'.mem hm hc) hc
  isEmpty cs := by rw [h'.isEmpty, h.isEmpty]

theorem nil : escape [] = [] :=
  List.isEmpty_iff.mp (h.isEmpty [])

theorem blanks_append {front : List Char} (hf : ∀ c ∈ front, isBlank c = true)
    (cs : List Char) : escape (front ++ cs) = front ++ escape cs := by
  induction front with
  | nil => rfl
  | cons c front ih =>
    have hc := h.around (hf c (.head _)) [] (front ++ cs)
    rw [h.nil, ih fun d hd ↦ hf d (.tail _ hd)] at hc
    exact hc

theorem append_blanks {back : List Char} (hb : ∀ c ∈ back, isBlank c = true)
    (cs : List Char) : escape (cs ++ back) = escape cs ++ back := by
  cases back with
  | nil => rw [List.append_nil, List.append_nil]
  | cons c back =>
    have he := h.blanks_append (fun d hd ↦ hb d (.tail _ hd)) []
    rw [List.append_nil, h.nil, List.append_nil] at he
    rw [h.around (hb c (.head _)), he]

/-! ## Blanks at the ends -/

/-- A blank at an end of what is escaped would be there before, with other characters around it. -/
private theorem isTrimmed {cs : List Char} (ht : IsTrimmed cs) : IsTrimmed (escape cs) := by
  have hne {front : List Char} (hf : front ≠ []) : escape front ≠ [] := by
    rw [ne_eq, ← List.isEmpty_iff, h.isEmpty, List.isEmpty_iff]
    exact hf
  constructor
  · intro c hc
    by_contra hb
    rw [Bool.not_eq_false] at hb
    obtain ⟨front, back, rfl, hn⟩ :=
      List.eq_append_cons_of_mem (h.mem (List.mem_of_head? hc) hb)
    by_cases hf : front = []
    · subst hf
      exact Bool.noConfusion (hb.symm.trans (ht.head c rfl))
    · rw [h.around hb, List.head?_append_of_ne_nil _ (hne hf)] at hc
      exact hn (h.mem (List.mem_of_head? hc) hb)
  · intro c hc
    by_contra hb
    rw [Bool.not_eq_false] at hb
    obtain ⟨back, front, he, hn⟩ :=
      List.eq_append_cons_of_mem (List.mem_reverse.mpr (h.mem (List.mem_of_getLast? hc) hb))
    obtain rfl : cs = front.reverse ++ c :: back.reverse := by
      rw [← List.reverse_inj, he]
      simp
    rw [← List.mem_reverse] at hn
    by_cases hf : back.reverse = []
    · rw [hf] at ht
      exact Bool.noConfusion (hb.symm.trans (ht.last c List.getLast?_concat))
    · rw [h.around hb, List.getLast?_append_cons, List.getLast?_cons_of_ne_nil (hne hf)] at hc
      exact hn (h.mem (List.mem_of_getLast? hc) hb)

theorem trimChars (cs : List Char) : trimChars (escape cs) = escape (trimChars cs) := by
  obtain ⟨front, back, hf, hb, he⟩ := exists_append_trimChars cs
  conv_lhs => rw [← he, h.append_blanks hb, h.blanks_append hf]
  exact trimChars_append hf (h.isTrimmed (isTrimmed_trimChars cs)) hb

/-! ## Lines -/

theorem intercalate (ls : List (List Char)) :
    escape (['\n'].intercalate ls) = ['\n'].intercalate (ls.map escape) := by
  induction ls with
  | nil => exact h.nil
  | cons l ls ih =>
    cases ls with
    | nil => simp
    | cons l' ls =>
      rw [List.intercalate_cons_cons, List.map_cons, List.map_cons, List.intercalate_cons_cons,
        List.append_assoc, List.singleton_append, h.around (by decide), ih]
      simp

theorem trimmedPieces (cs : List Char) :
    trimmedPieces (escape cs) = (trimmedPieces cs).map escape := by
  have hj : ['\n'].intercalate (cs.splitOn '\n') = cs := List.intercalate_splitOn '\n'
  have hs : (escape cs).splitOn '\n' = (cs.splitOn '\n').map escape := by
    conv_lhs => rw [← hj, h.intercalate]
    refine List.splitOn_intercalate '\n' ?_ (by simp [List.splitOn_ne_nil])
    rintro l hl hm
    obtain ⟨piece, hp, rfl⟩ := List.mem_map.mp hl
    exact not_mem_of_mem_splitOn hp (h.mem hm (by decide))
  rw [Text.trimmedPieces, hs, Text.trimmedPieces, List.map_map, List.map_map]
  exact List.map_congr_left fun piece _ ↦ h.trimChars piece

end KeepsBlanks

section

variable {escape : String → String} {escapeChars : List Char → List Char}
  (h : KeepsBlanks escapeChars) (he : ∀ text, (escape text).toList = escapeChars text.toList)

include h he

/-- A text is escaped like what is left of it without the blanks at the ends. -/
theorem KeepsBlanks.trim (text : String) : trim (escape text) = escape (trim text) := by
  rw [← String.toList_inj, toList_trim, he, h.trimChars, he, toList_trim]

theorem KeepsBlanks.isEmpty_text (text : String) : (escape text).isEmpty = text.isEmpty := by
  rw [← isEmpty_toList, he, h.isEmpty, isEmpty_toList]

/-- The lines of an escaped text are those of the text, each escaped. -/
theorem KeepsBlanks.trimmedLines (text : String) :
    trimmedLines (escape text) = (trimmedLines text).map escape := by
  rw [trimmedLines_eq, trimmedLines_eq, he, h.trimmedPieces, dropEmptyEnds_map h.isEmpty,
    List.map_map, List.map_map]
  refine List.map_congr_left fun l _ ↦ ?_
  rw [Function.comp_apply, Function.comp_apply, ← String.toList_inj, he, String.toList_ofList,
    String.toList_ofList]

end

end RpcForge.Text

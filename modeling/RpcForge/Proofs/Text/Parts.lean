import Mathlib.Data.List.Infix
import Mathlib.Data.List.TakeWhile
import RpcForge.Text.Pieces

/-!
# Parts of a text

What begins a text, what occurs in it, and what stands on the two sides of a character, each said of
the characters of the text.
-/

namespace RpcForge.Text

private theorem occursIn_iff (part cs : List Char) : occursIn part cs = true ↔ part <:+: cs := by
  induction cs with
  | nil => simp [occursIn]
  | cons c cs ih => simp [occursIn, ih, List.infix_cons_iff]

/-- What does not occur does not occur in any stretch either. -/
theorem occursIn_eq_false_of_isInfix {part cs ds : List Char} (hi : ds <:+: cs)
    (h : occursIn part cs = false) : occursIn part ds = false := by
  rw [Bool.eq_false_iff, ne_eq, occursIn_iff] at h ⊢
  exact fun hp ↦ h (hp.trans hi)

/-- A text occurs in another one if its characters are a stretch of those of the other. -/
theorem hasPart_iff (text part : String) :
    hasPart text part = true ↔ part.toList <:+: text.toList :=
  occursIn_iff _ _

theorem isPrefixOf_append_cons {part : List Char} {c : Char} (h : c ∉ part)
    (front back : List Char) : part.isPrefixOf (front ++ c :: back) = part.isPrefixOf front := by
  induction front generalizing part with
  | nil =>
    cases part with
    | nil => rfl
    | cons d part =>
      rw [List.mem_cons, not_or] at h
      simp [List.isPrefixOf, Ne.symm h.1]
  | cons d front ih =>
    cases part with
    | nil => rfl
    | cons e part =>
      rw [List.mem_cons, not_or] at h
      rw [List.cons_append, List.isPrefixOf, List.isPrefixOf, ih h.2]

/-- What stands before the first occurrence of a character begins whatever else stands before it. -/
private theorem prefix_of_append_cons_eq {front back front' back' : List Char} {c : Char}
    (h : c ∉ front) (he : front ++ c :: back = front' ++ c :: back') : front <+: front' := by
  rw [← List.isPrefixOf_iff_prefix, ← isPrefixOf_append_cons h front' back', ← he,
    List.isPrefixOf_iff_prefix]
  exact List.prefix_append _ _

/-- One stretch stands before the first occurrence of a character. -/
theorem eq_of_append_cons_eq {front back front' back' : List Char} {c : Char} (h : c ∉ front)
    (h' : c ∉ front') (he : front ++ c :: back = front' ++ c :: back') : front = front' := by
  have hp := prefix_of_append_cons_eq h he
  exact hp.eq_of_length_le (prefix_of_append_cons_eq h' he.symm).length_le

/-- A part occurs on one side of each character that it does not have. -/
theorem occursIn_append_cons {part : List Char} {c : Char} (h : c ∉ part)
    (front back : List Char) :
    occursIn part (front ++ c :: back) = (occursIn part front || occursIn part back) := by
  induction front with
  | nil =>
    rw [List.nil_append, occursIn, occursIn]
    cases part with
    | nil => rfl
    | cons d part =>
      rw [List.mem_cons, not_or] at h
      simp [List.isPrefixOf, Ne.symm h.1]
  | cons d front ih =>
    have hp := isPrefixOf_append_cons h (d :: front) back
    rw [List.cons_append] at hp
    rw [List.cons_append, occursIn, hp, ih, occursIn, Bool.or_assoc]

theorem occursIn_cons {part : List Char} (hp : part ≠ []) {c : Char} (h : c ∉ part)
    (back : List Char) : occursIn part (c :: back) = occursIn part back := by
  have he : occursIn part [] = false := List.isEmpty_eq_false_iff.mpr hp
  rw [← List.nil_append (c :: back), occursIn_append_cons h, he, Bool.false_or]

/-- A text begins with another one if its characters begin with those of the other. -/
theorem startsWith_iff (text start : String) :
    startsWith text start = true ↔ start.toList <+: text.toList := by
  rw [startsWith, List.isPrefixOf_iff_prefix]

theorem startsWith_append (start rest : String) : startsWith (start ++ rest) start = true := by
  rw [startsWith_iff, String.toList_append]
  exact List.prefix_append _ _

/-- A text does not begin with another one if neither the front of it does nor the other one begins
with that front. -/
theorem startsWith_append_eq_false {front start : String} (h : startsWith front start = false)
    (h' : startsWith start front = false) (rest : String) :
    startsWith (front ++ rest) start = false := by
  rw [Bool.eq_false_iff, ne_eq, startsWith_iff] at h h' ⊢
  intro hp
  rw [String.toList_append] at hp
  exact (List.prefix_or_prefix_of_prefix hp (List.prefix_append _ _)).elim h h'

/-- Texts differ if one of them has a beginning that the other one does not have. -/
theorem ne_of_startsWith {a b start : String} (ha : startsWith a start = true)
    (hb : startsWith b start = false) : a ≠ b := by
  rintro rfl
  exact Bool.noConfusion (ha.symm.trans hb)

/-- Texts differ if they end with different texts of the same length. -/
theorem append_ne_append {s t : String} (hl : s.toList.length = t.toList.length) (h : s ≠ t)
    (a b : String) : a ++ s ≠ b ++ t := by
  intro he
  have hc := congrArg String.toList he
  rw [String.toList_append, String.toList_append] at hc
  exact h (String.toList_inj.mp (List.append_inj_right' hc hl))

/-- What stands after a beginning is what completes the text behind it. -/
theorem stripPrefix?_eq_some_iff (start text rest : String) :
    stripPrefix? start text = some rest ↔ text = start ++ rest := by
  have he : text = start ++ rest ↔ text.toList = start.toList ++ rest.toList := by
    rw [← String.toList_append, String.toList_inj]
  rw [he, stripPrefix?]
  constructor
  · intro h
    split at h
    · next hp =>
      obtain ⟨tail, ht⟩ := List.isPrefixOf_iff_prefix.mp hp
      obtain rfl := Option.some.inj h
      rw [← ht, List.drop_left, String.toList_ofList]
    · cases h
  · intro h
    rw [if_pos (List.isPrefixOf_iff_prefix.mpr ⟨rest.toList, h.symm⟩), h, List.drop_left,
      String.ofList_toList]

/-- A text is cut at the first occurrence of a character. -/
theorem cut?_eq_some_iff (separator : Char) (text before after : String) :
    cut? separator text = some (before, after) ↔
      separator ∉ before.toList ∧
        text.toList = before.toList ++ separator :: after.toList := by
  rw [cut?, List.span_eq_takeWhile_dropWhile]
  constructor
  · intro h
    split at h
    · next front c back hs =>
      obtain ⟨hf, hb⟩ := Prod.mk.inj hs
      obtain ⟨rfl, rfl⟩ := Prod.mk.inj (Option.some.inj h)
      have hc : c = separator := by
        have hd := List.head?_dropWhile_not (· != separator) text.toList
        simpa [hb] using hd
      have ht := List.takeWhile_append_dropWhile (p := (· != separator)) (l := text.toList)
      rw [hf, hb, hc] at ht
      rw [String.toList_ofList, String.toList_ofList]
      refine ⟨fun hm ↦ ?_, ht.symm⟩
      rw [← hf] at hm
      simpa using List.mem_takeWhile_imp hm
    · cases h
  · rintro ⟨hn, ht⟩
    have hp : ∀ c ∈ before.toList, (c != separator) = true := by
      intro c hc
      rw [bne_iff_ne]
      rintro rfl
      exact hn hc
    rw [ht, List.takeWhile_append_of_pos hp, List.dropWhile_append_of_pos hp]
    simp

/-! ## Behind the last occurrence of a character -/

/-- A text with a character is cut at the last occurrence of it. -/
theorem exists_eq_append_of_mem {separator : Char} {text : String} (h : separator ∈ text.toList) :
    ∃ front back : String, text = front ++ String.singleton separator ++ back ∧
      separator ∉ back.toList := by
  obtain ⟨back, front, he, hn⟩ := List.eq_append_cons_of_mem (List.mem_reverse.mpr h)
  refine ⟨.ofList front.reverse, .ofList back.reverse, ?_, by simpa using hn⟩
  rw [← String.toList_inj, ← List.reverse_inj, he]
  simp

private theorem forall_mem_reverse_bne {separator : Char} {cs : List Char} (h : separator ∉ cs) :
    ∀ c ∈ cs.reverse, (c != separator) = true := by
  intro c hc
  rw [bne_iff_ne]
  rintro rfl
  exact h (List.mem_reverse.mp hc)

/-- All of a text without a character stands behind the last occurrence of it. -/
theorem afterLast_of_not_mem {separator : Char} {text : String} (h : separator ∉ text.toList) :
    afterLast separator text = text := by
  rw [afterLast, List.takeWhile_eq_self_iff.mpr (forall_mem_reverse_bne h), List.reverse_reverse,
    String.ofList_toList]

theorem afterLast_append {separator : Char} {back : String} (h : separator ∉ back.toList)
    (front : String) :
    afterLast separator (front ++ String.singleton separator ++ back) = back := by
  have hr : (front ++ String.singleton separator ++ back).toList.reverse =
      back.toList.reverse ++ separator :: front.toList.reverse := by simp
  rw [afterLast, hr, List.takeWhile_append_of_pos (forall_mem_reverse_bne h),
    List.takeWhile_cons_of_neg (by simp), List.append_nil, List.reverse_reverse,
    String.ofList_toList]

end RpcForge.Text

import Mathlib.Data.List.Basic
import RpcForge.Proofs.Text.Pieces
import RpcForge.Text.Words

/-!
# Words in a casing

The words of a text are letters and numbers, and a change of case leaves ASCII letters and digits of
them. So joined words have an underscore only where a casing puts one between two words. In an ASCII
text nothing of a word is lost, and underscores stand alone and at no end.
-/

namespace RpcForge.Text

/-! ## Words -/

private theorem mem_of_mem_piecesBy {isCut : Char → Bool} {cs piece : List Char}
    (h : piece ∈ piecesBy isCut cs) : piece ⊆ cs := by
  induction cs generalizing piece with
  | nil =>
    rw [piecesBy, List.mem_singleton] at h
    simp [h]
  | cons c cs ih =>
    rw [piecesBy] at h
    split at h
    · rcases List.mem_cons.mp h with rfl | h
      · exact List.nil_subset _
      · exact List.subset_cons_of_subset _ (ih h)
    · split at h
      · next hp => simp [List.mem_singleton.mp h]
      · next first rest hp =>
        rcases List.mem_cons.mp h with rfl | h
        · exact List.cons_subset_cons _ (ih (hp ▸ List.mem_cons_self))
        · exact List.subset_cons_of_subset _ (ih (hp ▸ List.mem_cons_of_mem _ h))

/-- The words of a run have no characters but those of the current word and of the run. -/
private theorem subset_of_mem_wordsOfRun {case : WordCase} {word run w : List Char}
    (h : w ∈ wordsOfRun case word run) : w ⊆ word ++ run := by
  fun_induction wordsOfRun case word run with
  | case1 => simp at h
  | case2 case word c => simp [List.mem_singleton.mp h]
  | case3 case word c d rest _ ih =>
    rcases List.mem_cons.mp h with rfl | h
    · simp
    · exact List.Subset.trans (ih h) (by simp)
  | case4 case word c d rest _ _ ih =>
    rcases List.mem_cons.mp h with rfl | h
    · simp
    · exact List.Subset.trans (ih h) (by simp)
  | case5 case word c d rest _ _ ih => simpa using ih h

/-- The words of a run are not empty: the last letter can only be an upper-case one if there is
one. -/
private theorem ne_nil_of_mem_wordsOfRun {case : WordCase} {word run w : List Char}
    (hw : case = .upper → word ≠ []) (h : w ∈ wordsOfRun case word run) : w ≠ [] := by
  fun_induction wordsOfRun case word run with
  | case1 => simp at h
  | case2 case word c => simp [List.mem_singleton.mp h]
  | case3 case word c d rest _ ih =>
    rcases List.mem_cons.mp h with rfl | h
    · simp
    · exact ih (by simp) h
  | case4 case word c d rest _ hc ih =>
    rcases List.mem_cons.mp h with rfl | h
    · exact hw hc.1
    · exact ih (by simp) h
  | case5 case word c d rest _ _ ih => exact ih (by simp) h

private theorem ne_nil_of_mem_words {text w : List Char} (h : w ∈ words text) : w ≠ [] := by
  obtain ⟨run, -, hw⟩ := List.mem_flatMap.mp h
  exact ne_nil_of_mem_wordsOfRun (by simp) hw

/-- Words have letters and numbers of the text. -/
theorem forall_mem_words {text w : List Char} (h : w ∈ words text) :
    ∀ c ∈ w, c ∈ text ∧ isAlphanumeric c = true := by
  obtain ⟨run, hr, hw⟩ := List.mem_flatMap.mp h
  intro c hc
  have hm : c ∈ run := by simpa using subset_of_mem_wordsOfRun hw hc
  exact ⟨mem_of_mem_piecesBy hr hm, by simpa using forall_mem_piecesBy hr c hm⟩

/-! ## Change of case -/

private theorem isAlphanum_toLower {c : Char} (h : c.isAlphanum = true) :
    c.toLower.isAlphanum = true := by
  unfold Char.toLower
  split
  · next hu =>
    -- an upper-case letter becomes the lower-case one 32 places behind it
    have hl : 97 ≤ c.val + 32 ∧ c.val + 32 ≤ 122 := by
      simp only [ge_iff_le, UInt32.le_iff_toNat_le, UInt32.toNat_add] at hu ⊢
      simp at hu ⊢
      omega
    unfold Char.isAlphanum Char.isAlpha Char.isLower
    simp [hl]
  · exact h

private theorem isAlphanum_toUpper {c : Char} (h : c.isAlphanum = true) :
    c.toUpper.isAlphanum = true := by
  unfold Char.toUpper
  split
  · next hl =>
    -- going back by 32 places is going forward by the rest of the range
    have hu : 65 ≤ c.val + 4294967264 ∧ c.val + 4294967264 ≤ 90 := by
      simp only [UInt32.le_iff_toNat_le, UInt32.toNat_add] at hl ⊢
      simp at hl ⊢
      omega
    unfold Char.isAlphanum Char.isAlpha Char.isUpper
    simp [hu]
  · exact h

/-- A letter or number leaves ASCII letters and digits in lower case. -/
private theorem forall_mem_lowered {c : Char} (h : isAlphanumeric c = true) :
    ∀ d ∈ lowered c, d.isAlphanum = true := by
  unfold lowered
  by_cases ha : isAscii c = true
  · rw [isAlphanumeric, if_pos ha] at h
    simpa [ha] using isAlphanum_toLower h
  · rw [if_neg ha]
    split <;> simp

/-- A letter or number leaves ASCII letters and digits in upper case. -/
private theorem forall_mem_uppered {c : Char} (h : isAlphanumeric c = true) :
    ∀ d ∈ uppered c, d.isAlphanum = true := by
  unfold uppered
  by_cases ha : isAscii c = true
  · rw [isAlphanumeric, if_pos ha] at h
    simpa [ha] using isAlphanum_toUpper h
  · rw [if_neg ha]
    split <;> simp

private theorem forall_mem_loweredWord {word : List Char}
    (h : ∀ c ∈ word, isAlphanumeric c = true) :
    ∀ d ∈ loweredWord word, d.isAlphanum = true :=
  List.forall_mem_flatMap.mpr fun c hc ↦ forall_mem_lowered (h c hc)

private theorem forall_mem_capitalizedWord {word : List Char}
    (h : ∀ c ∈ word, isAlphanumeric c = true) :
    ∀ d ∈ capitalizedWord word, d.isAlphanum = true := by
  cases word with
  | nil => simp [capitalizedWord]
  | cons c cs =>
    obtain ⟨hc, hcs⟩ := List.forall_mem_cons.mp h
    exact List.forall_mem_append.mpr ⟨forall_mem_uppered hc, forall_mem_loweredWord hcs⟩

/-! ## Joined words -/

/-- Words that are joined like `mathApi` have letters and digits only. -/
theorem forall_mem_joinCamel {words : List (List Char)}
    (h : ∀ word ∈ words, ∀ c ∈ word, isAlphanumeric c = true) :
    ∀ d ∈ joinCamel words, d.isAlphanum = true := by
  cases words with
  | nil => simp [joinCamel]
  | cons word words =>
    obtain ⟨hw, hws⟩ := List.forall_mem_cons.mp h
    exact List.forall_mem_append.mpr ⟨forall_mem_loweredWord hw,
      List.forall_mem_flatMap.mpr fun word hm ↦ forall_mem_capitalizedWord (hws word hm)⟩

theorem mem_intercalate {α : Type} {separator : List α} {lists : List (List α)} {a : α}
    (h : a ∈ separator.intercalate lists) : a ∈ separator ∨ ∃ l ∈ lists, a ∈ l := by
  induction lists with
  | nil => simp at h
  | cons l lists ih =>
    cases lists with
    | nil => exact .inr ⟨l, List.mem_cons_self, by simpa using h⟩
    | cons next lists =>
      rw [List.intercalate_cons_cons, List.mem_append, List.mem_append] at h
      rcases h with (h | h) | h
      · exact .inr ⟨l, List.mem_cons_self, h⟩
      · exact .inl h
      · exact (ih h).imp id fun ⟨other, ho, ha⟩ ↦ ⟨other, List.mem_cons_of_mem _ ho, ha⟩

/-- Words that are joined like `math_api` have letters, digits and underscores only. -/
theorem forall_mem_joinSnake {words : List (List Char)}
    (h : ∀ word ∈ words, ∀ c ∈ word, isAlphanumeric c = true) :
    ∀ d ∈ joinSnake words, d.isAlphanum = true ∨ d = '_' := by
  intro d hd
  rcases mem_intercalate hd with hd | ⟨_, hm, hd⟩
  · exact .inr (List.mem_singleton.mp hd)
  · obtain ⟨word, hw, rfl⟩ := List.mem_map.mp hm
    exact .inl (forall_mem_loweredWord (h word hw) d hd)

/-- Lists of which none is empty begin, when they are joined, as the first of them begins. -/
private theorem head?_intercalate {α : Type} (separator : List α) {lists : List (List α)}
    (h : ∀ l ∈ lists, l ≠ []) :
    (separator.intercalate lists).head? = lists.head?.bind List.head? := by
  cases lists with
  | nil => rfl
  | cons l lists =>
    obtain ⟨a, rest, rfl⟩ := List.exists_cons_of_ne_nil (h l List.mem_cons_self)
    cases lists with
    | nil => simp
    | cons next lists => simp [List.intercalate_cons_cons]

/-- Lists of which none is empty end, when they are joined, as the last of them ends. -/
private theorem getLast?_intercalate {α : Type} (separator : List α) {lists : List (List α)}
    (h : ∀ l ∈ lists, l ≠ []) :
    (separator.intercalate lists).getLast? = lists.getLast?.bind List.getLast? := by
  induction lists with
  | nil => rfl
  | cons l lists ih =>
    cases lists with
    | nil => simp
    | cons next lists =>
      have hs : ((next :: lists).getLast?.bind List.getLast?).isSome = true := by
        have hl := h _ (List.mem_cons_of_mem l (List.getLast_mem (List.cons_ne_nil next lists)))
        rw [List.getLast?_eq_some_getLast (List.cons_ne_nil _ _), Option.bind_some,
          List.getLast?_eq_some_getLast hl, Option.isSome_some]
      rw [List.intercalate_cons_cons, List.append_assoc, List.getLast?_append,
        List.getLast?_append, ih fun l hl ↦ h l (.tail _ hl), List.getLast?_cons_cons]
      simp [Option.or_of_isSome hs]

/-- In lower case every character of an ASCII word stays one. -/
private theorem loweredWord_ne_nil {word : List Char} (hn : word ≠ [])
    (h : ∀ c ∈ word, isAscii c = true) : loweredWord word ≠ [] := by
  obtain ⟨c, cs, rfl⟩ := List.exists_cons_of_ne_nil hn
  simp [loweredWord, lowered, h c List.mem_cons_self]

/-- An element neither stands at an end of a list nor twice in a row. -/
structure Tight {α : Type} (a : α) (as : List α) : Prop where
  /-- It does not come first. -/
  head : as.head? ≠ some a
  /-- It does not come last. -/
  last : as.getLast? ≠ some a
  /-- It does not stand behind itself. -/
  inner : ¬[a, a] <:+: as

/-- Behind lists without an element, a single one of it makes no two in a row, as long as it does
not come first in what follows. -/
private theorem not_infix_append_cons {α : Type} {a : α} {front back : List α} (hf : a ∉ front)
    (hh : back.head? ≠ some a) (hb : ¬[a, a] <:+: back) : ¬[a, a] <:+: front ++ a :: back := by
  induction front with
  | nil =>
    rw [List.nil_append, List.infix_cons_iff, List.cons_prefix_cons, not_or]
    refine ⟨?_, hb⟩
    rintro ⟨-, rest, rfl⟩
    exact hh rfl
  | cons b front ih =>
    rw [List.mem_cons, not_or] at hf
    rw [List.cons_append, List.infix_cons_iff, List.cons_prefix_cons, not_or]
    exact ⟨fun h ↦ hf.1 h.1, ih hf.2⟩

/-- Joined lists do not begin with the separator if they are not empty and do not have it. -/
private theorem head?_intercalate_ne {α : Type} {a : α} {lists : List (List α)}
    (h : ∀ l ∈ lists, l ≠ [] ∧ a ∉ l) : ([a].intercalate lists).head? ≠ some a := by
  rw [head?_intercalate _ fun l hl ↦ (h l hl).1]
  intro he
  obtain ⟨l, hm, hc⟩ := Option.bind_eq_some_iff.mp he
  exact (h l (List.mem_of_mem_head? hm)).2 (List.mem_of_mem_head? hc)

private theorem not_infix_intercalate {α : Type} {a : α} {lists : List (List α)}
    (h : ∀ l ∈ lists, l ≠ [] ∧ a ∉ l) : ¬[a, a] <:+: [a].intercalate lists := by
  induction lists with
  | nil => simp
  | cons l lists ih =>
    obtain ⟨hl, hr⟩ := List.forall_mem_cons.mp h
    cases lists with
    | nil =>
      rw [List.intercalate_singleton]
      exact fun hi ↦ hl.2 (hi.subset (.head _))
    | cons next lists =>
      rw [List.intercalate_cons_cons, List.append_assoc, List.singleton_append]
      exact not_infix_append_cons hl.2 (head?_intercalate_ne hr) (ih hr)

/-- Lists that are not empty and do not have the separator are joined with single separators between
them. -/
private theorem tight_intercalate {α : Type} {a : α} {lists : List (List α)}
    (h : ∀ l ∈ lists, l ≠ [] ∧ a ∉ l) : Tight a ([a].intercalate lists) where
  head := head?_intercalate_ne h
  last := by
    rw [getLast?_intercalate _ fun l hl ↦ (h l hl).1]
    intro he
    obtain ⟨l, hm, hc⟩ := Option.bind_eq_some_iff.mp he
    exact (h l (List.mem_of_getLast? hm)).2 (List.mem_of_getLast? hc)
  inner := not_infix_intercalate h

/-- Words of an ASCII text are joined like `math_api` with single underscores between them. -/
theorem tight_joinSnake {text : List Char} (h : ∀ c ∈ text, isAscii c = true) :
    Tight '_' (joinSnake (words text)) := by
  refine tight_intercalate (List.forall_mem_map.mpr fun word hm ↦ ?_)
  refine ⟨loweredWord_ne_nil (ne_nil_of_mem_words hm) fun c hc ↦ h c (forall_mem_words hm c hc).1,
    fun hu ↦ ?_⟩
  simpa using forall_mem_loweredWord (fun c hc ↦ (forall_mem_words hm c hc).2) _ hu

end RpcForge.Text

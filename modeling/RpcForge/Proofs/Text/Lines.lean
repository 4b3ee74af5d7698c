import Mathlib.Data.List.DropRight
import RpcForge.Proofs.Text.Pieces
import RpcForge.Text.Blank

/-!
# Lines without the blanks around them

A text without the blanks at its ends, and its lines without the blanks at theirs. What ends a line
is blank itself, so these lines are the stretches between line feeds.
-/

namespace RpcForge.Text

/-! ## Blanks at the ends -/

/-- Characters without the blanks at either end. -/
def trimChars (cs : List Char) : List Char :=
  dropBlanksRight (dropBlanks cs)

/-- Whether there is no blank at either end of the characters. -/
structure IsTrimmed (cs : List Char) : Prop where
  /-- The first character is no blank. -/
  head : ∀ c, cs.head? = some c → isBlank c = false
  /-- The last character is no blank. -/
  last : ∀ c, cs.getLast? = some c → isBlank c = false

theorem trim_eq (text : String) : trim text = String.ofList (trimChars text.toList) := rfl

theorem toList_trim (text : String) : (trim text).toList = trimChars text.toList := by
  rw [trim_eq, String.toList_ofList]

/-- What stands between blanks is what is left without them. -/
theorem trimChars_append {front middle back : List Char} (hf : ∀ c ∈ front, isBlank c = true)
    (hm : IsTrimmed middle) (hb : ∀ c ∈ back, isBlank c = true) :
    trimChars (front ++ middle ++ back) = middle := by
  rw [trimChars, dropBlanks, List.append_assoc, List.dropWhile_append_of_pos hf, dropBlanksRight,
    dropBlanks]
  cases middle with
  | nil =>
    rw [List.nil_append, List.dropWhile_eq_nil_iff.mpr hb]
    rfl
  | cons c cs =>
    have hc : isBlank c = false := hm.head c rfl
    rw [List.cons_append, List.dropWhile_cons_of_neg (by simp [hc]), ← List.cons_append,
      List.reverse_append, List.dropWhile_append_of_pos (by simpa using hb)]
    change List.rdropWhile isBlank (c :: cs) = c :: cs
    rw [List.rdropWhile_eq_self_iff]
    intro hn
    simpa using hm.last _ (List.getLast?_eq_some_getLast hn)

private theorem isTrimmed_nil : IsTrimmed [] :=
  ⟨by simp, by simp⟩

theorem IsTrimmed.trimChars_eq {cs : List Char} (h : IsTrimmed cs) : trimChars cs = cs := by
  simpa using trimChars_append (List.forall_mem_nil _) h (List.forall_mem_nil _)

theorem isTrimmed_trimChars (cs : List Char) : IsTrimmed (trimChars cs) := by
  have hl : ∀ c, (trimChars cs).getLast? = some c → isBlank c = false := by
    intro c hc
    have hn : trimChars cs ≠ [] := by
      intro he
      rw [he] at hc
      cases hc
    have hlast := List.rdropWhile_last_not isBlank (dropBlanks cs) hn
    rw [List.getLast?_eq_some_getLast hn] at hc
    cases hc
    exact Bool.eq_false_iff.mpr hlast
  refine ⟨fun c hc ↦ ?_, hl⟩
  have hp : trimChars cs <+: dropBlanks cs := List.rdropWhile_prefix isBlank _
  obtain ⟨rest, hr⟩ := hp
  have hh : (dropBlanks cs).head? = some c := by
    rw [← hr, List.head?_append, hc]
    rfl
  have hd := List.head?_dropWhile_not isBlank cs
  rw [← dropBlanks, hh] at hd
  exact hd

/-- Characters are those that are left without the blanks at the ends, with blanks around them. -/
theorem exists_append_trimChars (cs : List Char) : ∃ front back : List Char,
    (∀ c ∈ front, isBlank c = true) ∧ (∀ c ∈ back, isBlank c = true) ∧
      front ++ trimChars cs ++ back = cs := by
  refine ⟨cs.takeWhile isBlank, List.rtakeWhile isBlank (dropBlanks cs),
    fun c hc ↦ List.mem_takeWhile_imp hc, fun c hc ↦ List.mem_rtakeWhile_imp hc, ?_⟩
  rw [List.append_assoc]
  have hr : trimChars cs ++ List.rtakeWhile isBlank (dropBlanks cs) = dropBlanks cs :=
    List.rdropWhile_append_rtakeWhile
  rw [hr, dropBlanks, List.takeWhile_append_dropWhile]

private theorem trimChars_trimChars (cs : List Char) : trimChars (trimChars cs) = trimChars cs :=
  (isTrimmed_trimChars cs).trimChars_eq

/-- Blanks around the characters do not count. -/
private theorem trimChars_between {front back : List Char} (hf : ∀ c ∈ front, isBlank c = true)
    (hb : ∀ c ∈ back, isBlank c = true) (cs : List Char) :
    trimChars (front ++ cs ++ back) = trimChars cs := by
  obtain ⟨f, b, hf', hb', he⟩ := exists_append_trimChars cs
  have hs : front ++ cs ++ back = (front ++ f) ++ trimChars cs ++ (b ++ back) := by
    conv_lhs => rw [← he]
    simp only [List.append_assoc]
  rw [hs]
  refine trimChars_append ?_ (isTrimmed_trimChars cs) ?_
  · simpa [or_imp, forall_and] using ⟨hf, hf'⟩
  · simpa [or_imp, forall_and] using ⟨hb', hb⟩

private theorem trimChars_eq_nil_iff (cs : List Char) :
    trimChars cs = [] ↔ cs.all isBlank = true := by
  constructor
  · intro h
    obtain ⟨f, b, hf, hb, he⟩ := exists_append_trimChars cs
    rw [h] at he
    rw [← he, List.all_eq_true]
    simpa [or_imp, forall_and] using ⟨hf, hb⟩
  · intro h
    simpa using trimChars_append (List.all_eq_true.mp h) isTrimmed_nil (List.forall_mem_nil _)

theorem trimChars_dropBlanksRight (cs : List Char) :
    trimChars (dropBlanksRight cs) = trimChars cs := by
  have hs : dropBlanksRight cs ++ List.rtakeWhile isBlank cs = cs :=
    List.rdropWhile_append_rtakeWhile
  conv_rhs => rw [← hs]
  simpa using (trimChars_between (List.forall_mem_nil _)
    (fun c hc ↦ List.mem_rtakeWhile_imp hc) (dropBlanksRight cs)).symm

theorem isEmpty_ofList (cs : List Char) : (String.ofList cs).isEmpty = cs.isEmpty := by
  rw [Bool.eq_iff_iff, String.isEmpty_iff, String.ofList_eq_empty_iff, List.isEmpty_iff]

theorem isEmpty_toList (text : String) : text.toList.isEmpty = text.isEmpty := by
  rw [← isEmpty_ofList, String.ofList_toList]

/-- Nothing is left exactly of a blank text. -/
theorem isEmpty_trim (text : String) : (trim text).isEmpty = isBlankText text := by
  rw [trim_eq, isEmpty_ofList, Bool.eq_iff_iff, List.isEmpty_iff, trimChars_eq_nil_iff]
  rfl

/-! ## Lines -/

/-- The lines of a text without the blanks around them and around the text. -/
def trimmedLines (text : String) : List String :=
  (lines (trim text)).map trim

private theorem trimChars_dropReturn (line : List Char) :
    trimChars (dropReturn line) = trimChars line := by
  unfold dropReturn
  split
  · next h =>
    obtain ⟨front, rfl⟩ := List.getLast?_eq_some_iff.mp h
    rw [List.dropLast_concat]
    have hr : ∀ c ∈ ['\r'], isBlank c = true := List.forall_mem_singleton.mpr (by decide)
    simpa using (trimChars_between (List.forall_mem_nil _) hr front).symm
  · rfl

private theorem dropReturn_begins (line : List Char) : dropReturn line <+: line := by
  unfold dropReturn
  split
  · exact List.dropLast_prefix line
  · exact List.prefix_rfl

/-- A line is a stretch of the text. -/
theorem infix_of_mem_linesFrom {line cs found : List Char} (h : found ∈ linesFrom line cs) :
    found <:+: line.reverse ++ cs := by
  induction cs generalizing line with
  | nil =>
    rw [linesFrom] at h
    split at h
    · cases h
    · obtain rfl := List.mem_singleton.mp h
      simp
  | cons c cs ih =>
    rw [linesFrom] at h
    split at h
    · rcases List.mem_cons.mp h with rfl | h
      · exact (dropReturn_begins _).isInfix.trans (List.prefix_append _ _).isInfix
      · have hs : cs <:+ line.reverse ++ c :: cs :=
          (List.suffix_cons c cs).trans (List.suffix_append _ _)
        exact (ih h).trans hs.isInfix
    · simpa using ih h

/-- A line has no line feed in it. -/
theorem lineFeed_not_mem_linesFrom {line cs found : List Char} (hl : '\n' ∉ line)
    (h : found ∈ linesFrom line cs) : '\n' ∉ found := by
  induction cs generalizing line with
  | nil =>
    rw [linesFrom] at h
    split at h
    · cases h
    · obtain rfl := List.mem_singleton.mp h
      simpa using hl
  | cons c cs ih =>
    rw [linesFrom] at h
    split at h
    · rcases List.mem_cons.mp h with rfl | h
      · exact fun hm ↦ hl (by simpa using (dropReturn_begins _).subset hm)
      · exact ih List.not_mem_nil h
    · next hc => exact ih (by simpa [hl] using Ne.symm hc) h

/-- Whether the last character ends a line, or there is none. -/
def endsLine (cs : List Char) : Bool :=
  cs.getLast?.all (· == '\n')

private theorem endsLine_append_lineFeed_cons (front cs : List Char) :
    endsLine (front ++ '\n' :: cs) = endsLine cs := by
  rw [endsLine, endsLine, List.getLast?_append_cons, List.getLast?_cons]
  cases cs.getLast? <;> rfl

/-- The stretches between line feeds are the lines, up to the blanks around them, and nothing at
the end where the last character ends a line. -/
private theorem map_splitOn_eq {line : List Char} (hl : '\n' ∉ line) (cs : List Char) :
    ((line.reverse ++ cs).splitOn '\n').map trimChars =
      (linesFrom line cs).map trimChars ++
        if endsLine (line.reverse ++ cs) then [[]] else [] := by
  induction cs generalizing line with
  | nil =>
    rw [List.append_nil, List.splitOn_eq_singleton (by simpa using hl), linesFrom]
    cases line with
    | nil => rfl
    | cons c line =>
      rw [List.mem_cons, not_or] at hl
      have he : endsLine (c :: line).reverse = false := by
        simp [endsLine, Ne.symm hl.1]
      rw [he]
      rfl
  | cons c cs ih =>
    rw [linesFrom]
    split
    · next hc =>
      subst hc
      rw [List.splitOn_append_cons_self_of_not_mem (by simpa using hl), List.map_cons,
        List.map_cons, trimChars_dropReturn, endsLine_append_lineFeed_cons]
      exact congrArg _ (ih List.not_mem_nil)
    · next hc =>
      have hs : line.reverse ++ c :: cs = (c :: line).reverse ++ cs := by simp
      rw [hs]
      exact ih (by simpa [hl] using Ne.symm hc)

/-- Lines without the empty ones at either end. -/
def dropEmptyEnds (ls : List (List Char)) : List (List Char) :=
  (ls.dropWhile List.isEmpty).rdropWhile List.isEmpty

theorem dropEmptyEnds_cons_nil (ls : List (List Char)) :
    dropEmptyEnds ([] :: ls) = dropEmptyEnds ls := by
  rw [dropEmptyEnds, List.dropWhile_cons_of_pos rfl, dropEmptyEnds]

theorem dropEmptyEnds_concat_nil (ls : List (List Char)) :
    dropEmptyEnds (ls ++ [[]]) = dropEmptyEnds ls := by
  rw [dropEmptyEnds, List.dropWhile_append]
  split
  · next h => rw [dropEmptyEnds, List.isEmpty_iff.mp h]; rfl
  · rw [List.rdropWhile_concat_pos _ _ _ rfl, dropEmptyEnds]

theorem dropEmptyEnds_cons_concat {first last : List Char} (hf : first ≠ []) (hl : last ≠ [])
    (ls : List (List Char)) :
    dropEmptyEnds (first :: ls ++ [last]) = first :: ls ++ [last] := by
  rw [dropEmptyEnds, List.cons_append, List.dropWhile_cons_of_neg (by simpa using hf),
    ← List.cons_append, List.rdropWhile_concat_neg _ _ _ (by simpa using hl)]

/-- The lines that are not empty stay. -/
private theorem filter_dropEmptyEnds (ls : List (List Char)) :
    (dropEmptyEnds ls).filter (!·.isEmpty) = ls.filter (!·.isEmpty) := by
  have hn {found : List (List Char)} (h : ∀ l ∈ found, l.isEmpty = true) :
      found.filter (!·.isEmpty) = [] := by
    simpa using h
  have hd : ls.takeWhile List.isEmpty ++ (dropEmptyEnds ls ++
      List.rtakeWhile List.isEmpty (ls.dropWhile List.isEmpty)) = ls := by
    rw [dropEmptyEnds, List.rdropWhile_append_rtakeWhile, List.takeWhile_append_dropWhile]
  conv_rhs => rw [← hd]
  rw [List.filter_append, List.filter_append, hn fun l hl ↦ List.mem_takeWhile_imp hl,
    hn fun l hl ↦ List.mem_rtakeWhile_imp hl, List.nil_append, List.append_nil]

theorem dropEmptyEnds_map {f : List Char → List Char} (hf : ∀ l, (f l).isEmpty = l.isEmpty)
    (ls : List (List Char)) : dropEmptyEnds (ls.map f) = (dropEmptyEnds ls).map f := by
  have hc : List.isEmpty ∘ f = List.isEmpty := funext hf
  rw [dropEmptyEnds, List.dropWhile_map, List.rdropWhile, ← List.map_reverse, List.dropWhile_map,
    hc, ← List.map_reverse]
  rfl

/-- The stretches between line feeds without the blanks around them. -/
def trimmedPieces (cs : List Char) : List (List Char) :=
  (cs.splitOn '\n').map trimChars

theorem trimChars_cons {c : Char} (h : isBlank c = true) (cs : List Char) :
    trimChars (c :: cs) = trimChars cs := by
  simpa using trimChars_between (List.forall_mem_singleton.mpr h) (List.forall_mem_nil _) cs

private theorem trimChars_concat {c : Char} (h : isBlank c = true) (cs : List Char) :
    trimChars (cs ++ [c]) = trimChars cs := by
  simpa using trimChars_between (List.forall_mem_nil _) (List.forall_mem_singleton.mpr h) cs

/-- A character in front of a line does not count where it does not count in the line. -/
theorem map_splitOn_cons {α : Type} {f : List Char → α} {c : Char} (h : ∀ l, f (c :: l) = f l)
    (hc : c ≠ '\n') (cs : List Char) :
    ((c :: cs).splitOn '\n').map f = (cs.splitOn '\n').map f := by
  rw [List.splitOn_cons_eq_if_modifyHead, beq_eq_false_iff_ne.mpr hc, if_neg Bool.false_ne_true]
  cases cs.splitOn '\n' with
  | nil => rfl
  | cons first rest => rw [List.modifyHead_cons, List.map_cons, h, List.map_cons]

private theorem trimmedPieces_cons {c : Char} (h : isBlank c = true) (hc : c ≠ '\n')
    (cs : List Char) :
    trimmedPieces (c :: cs) = trimmedPieces cs :=
  map_splitOn_cons (trimChars_cons h) hc cs

theorem trimmedPieces_append_lineFeed {front : List Char} (h : '\n' ∉ front) (cs : List Char) :
    trimmedPieces (front ++ '\n' :: cs) = trimChars front :: trimmedPieces cs := by
  rw [trimmedPieces, List.splitOn_append_cons_self_of_not_mem h, List.map_cons, trimmedPieces]

private theorem dropEmptyEnds_trimmedPieces_cons {c : Char} (h : isBlank c = true)
    (cs : List Char) :
    dropEmptyEnds (trimmedPieces (c :: cs)) = dropEmptyEnds (trimmedPieces cs) := by
  by_cases hc : c = '\n'
  · subst hc
    exact (congrArg _ (trimmedPieces_append_lineFeed List.not_mem_nil cs)).trans
      (dropEmptyEnds_cons_nil _)
  · rw [trimmedPieces_cons h hc]

private theorem trimmedPieces_concat {c : Char} (h : isBlank c = true) (hc : c ≠ '\n')
    {front : List Char} (hf : '\n' ∉ front) (cs : List Char) :
    trimmedPieces (front ++ cs ++ [c]) = trimmedPieces (front ++ cs) := by
  induction cs generalizing front with
  | nil =>
    rw [List.append_nil, trimmedPieces, trimmedPieces, List.splitOn_eq_singleton hf,
      List.splitOn_eq_singleton (by simpa [hf] using hc.symm), List.map_singleton,
      List.map_singleton, trimChars_concat h]
  | cons x cs ih =>
    by_cases hx : x = '\n'
    · subst hx
      rw [List.append_assoc, List.cons_append, trimmedPieces_append_lineFeed hf,
        trimmedPieces_append_lineFeed hf]
      exact congrArg _ (ih List.not_mem_nil)
    · have hs (rest : List Char) : front ++ x :: rest = (front ++ [x]) ++ rest := by simp
      rw [hs]
      exact ih (by simpa [hf] using Ne.symm hx)

private theorem dropEmptyEnds_trimmedPieces_concat {c : Char} (h : isBlank c = true)
    (cs : List Char) :
    dropEmptyEnds (trimmedPieces (cs ++ [c])) = dropEmptyEnds (trimmedPieces cs) := by
  by_cases hc : c = '\n'
  · subst hc
    rw [trimmedPieces, List.splitOn_append_cons_self, List.splitOn_nil, List.map_append]
    exact dropEmptyEnds_concat_nil _
  · exact congrArg _ (trimmedPieces_concat h hc List.not_mem_nil cs)

/-- Blanks around the characters only add empty lines at the ends. -/
theorem dropEmptyEnds_trimmedPieces_between {front back : List Char}
    (hf : ∀ c ∈ front, isBlank c = true) (hb : ∀ c ∈ back, isBlank c = true) (cs : List Char) :
    dropEmptyEnds (trimmedPieces (front ++ cs ++ back)) = dropEmptyEnds (trimmedPieces cs) := by
  have hr : dropEmptyEnds (trimmedPieces (front ++ cs)) = dropEmptyEnds (trimmedPieces cs) := by
    induction front with
    | nil => rfl
    | cons c front ih =>
      rw [List.cons_append, dropEmptyEnds_trimmedPieces_cons (hf c (.head _)),
        ih fun d hd ↦ hf d (.tail _ hd)]
  rw [← hr]
  induction back using List.reverseRecOn with
  | nil => rw [List.append_nil]
  | append_singleton back c ih =>
    rw [← List.append_assoc, dropEmptyEnds_trimmedPieces_concat (hb c (by simp)),
      ih fun d hd ↦ hb d (by simp [hd])]

private theorem exists_splitOn_concat {c : Char} (h : c ≠ '\n') (front : List Char) :
    ∃ init last, (front ++ [c]).splitOn '\n' = init ++ [last ++ [c]] := by
  induction front with
  | nil => exact ⟨[], [], List.splitOn_eq_singleton (by simpa using h.symm)⟩
  | cons x front ih =>
    obtain ⟨init, last, he⟩ := ih
    rw [List.cons_append, List.splitOn_cons_eq_if_modifyHead, he]
    split
    · exact ⟨[] :: init, last, rfl⟩
    · cases init with
      | nil => exact ⟨[], x :: last, rfl⟩
      | cons first init => exact ⟨(x :: first) :: init, last, rfl⟩

private theorem isEmpty_trimChars_of_mem {c : Char} (h : isBlank c = false) {cs : List Char}
    (hc : c ∈ cs) :
    (trimChars cs).isEmpty = false := by
  rw [Bool.eq_false_iff, ne_eq, List.isEmpty_iff, trimChars_eq_nil_iff, List.all_eq_true]
  exact fun ha ↦ Bool.false_ne_true (h.symm.trans (ha c hc))

/-- The first and the last line of trimmed characters are not empty. -/
private theorem dropEmptyEnds_trimmedPieces_of_isTrimmed {cs : List Char} (h : IsTrimmed cs)
    (hn : cs ≠ []) : dropEmptyEnds (trimmedPieces cs) = trimmedPieces cs := by
  have hfirst : (trimmedPieces cs).dropWhile List.isEmpty = trimmedPieces cs := by
    cases cs with
    | nil => exact absurd rfl hn
    | cons c cs =>
      have hc : isBlank c = false := h.head c rfl
      have hne : (c == '\n') = false := by
        rw [beq_eq_false_iff_ne]
        rintro rfl
        cases hc
      rw [trimmedPieces, List.splitOn_cons_eq_if_modifyHead, hne, if_neg Bool.false_ne_true]
      cases hs : cs.splitOn '\n' with
      | nil => exact absurd hs (List.splitOn_ne_nil _ _)
      | cons first rest =>
        rw [List.modifyHead_cons, List.map_cons, List.dropWhile_cons_of_neg]
        simp [isEmpty_trimChars_of_mem hc (.head first)]
  rw [dropEmptyEnds, hfirst, List.rdropWhile_eq_self_iff]
  intro hp
  obtain ⟨front, c, rfl⟩ : ∃ front c, cs = front ++ [c] :=
    ⟨_, _, (List.dropLast_append_getLast hn).symm⟩
  have hc : isBlank c = false := h.last c (by simp)
  have hne : c ≠ '\n' := by
    rintro rfl
    cases hc
  obtain ⟨init, last, he⟩ := exists_splitOn_concat hne front
  simp [trimmedPieces, he, isEmpty_trimChars_of_mem hc]

/-- The lines of characters without blanks at the ends are the stretches between line feeds. -/
theorem map_linesFrom_of_isTrimmed {cs : List Char} (h : IsTrimmed cs) (hn : cs ≠ []) :
    (linesFrom [] cs).map trimChars = trimmedPieces cs := by
  have he : endsLine cs = false := by
    rw [endsLine, List.getLast?_eq_some_getLast hn, Option.all_some, beq_eq_false_iff_ne]
    intro hc
    have hb := h.last _ (List.getLast?_eq_some_getLast hn)
    rw [hc] at hb
    cases hb
  have hm := map_splitOn_eq List.not_mem_nil cs
  rw [List.reverse_nil, List.nil_append, he, if_neg Bool.false_ne_true, List.append_nil] at hm
  exact hm.symm

/-- The lines of a text are the stretches between its line feeds without the blanks around them,
except for empty ones before and after the others. -/
theorem trimmedLines_eq (text : String) :
    trimmedLines text = (dropEmptyEnds (trimmedPieces text.toList)).map String.ofList := by
  obtain ⟨front, back, hf, hb, he⟩ := exists_append_trimChars text.toList
  rw [← he, dropEmptyEnds_trimmedPieces_between hf hb, trimmedLines, lines, toList_trim]
  have ht := isTrimmed_trimChars text.toList
  generalize trimChars text.toList = cs at ht
  have hm : ((linesFrom [] cs).map String.ofList).map trim =
      ((linesFrom [] cs).map trimChars).map String.ofList := by
    rw [List.map_map, List.map_map]
    exact List.map_congr_left fun line _ ↦ by
      rw [Function.comp_apply, Function.comp_apply, trim_eq, String.toList_ofList]
  rw [hm]
  by_cases hn : cs = []
  · subst hn
    rfl
  · rw [dropEmptyEnds_trimmedPieces_of_isTrimmed ht hn, map_linesFrom_of_isTrimmed ht hn]

theorem length_trimmedLines_le_one {text : String} (h : '\n' ∉ text.toList) :
    (trimmedLines text).length ≤ 1 := by
  have hl (ls : List (List Char)) : (dropEmptyEnds ls).length ≤ ls.length :=
    (List.rdropWhile_prefix _ _).length_le.trans (List.dropWhile_suffix _).length_le
  rw [trimmedLines_eq, List.length_map]
  refine (hl _).trans ?_
  rw [trimmedPieces, List.splitOn_eq_singleton h]
  exact Nat.le_refl 1

/-- Blanks around a text add no line that is not blank. -/
theorem filter_trimmedLines (text : String) :
    (trimmedLines text).filter (!·.isEmpty) =
      ((lines text).filter (!isBlankText ·)).map trim := by
  have hs := map_splitOn_eq List.not_mem_nil text.toList
  rw [List.reverse_nil, List.nil_append, ← trimmedPieces] at hs
  have ht : ((if endsLine text.toList then [[]] else []).filter fun l : List Char ↦ !l.isEmpty) =
      [] := by
    split <;> rfl
  calc (trimmedLines text).filter (!·.isEmpty)
    _ = ((dropEmptyEnds (trimmedPieces text.toList)).filter (!·.isEmpty)).map String.ofList := by
        rw [trimmedLines_eq, List.filter_map]
        simp only [Function.comp_def, isEmpty_ofList]
    _ = (((linesFrom [] text.toList).map trimChars).filter (!·.isEmpty)).map String.ofList := by
        rw [filter_dropEmptyEnds, hs, List.filter_append, ht, List.append_nil]
    _ = ((lines text).filter (!isBlankText ·)).map trim := by
        have hb (l : List Char) : isBlankText (String.ofList l) = (trimChars l).isEmpty := by
          rw [← isEmpty_trim, trim_eq, String.toList_ofList, isEmpty_ofList]
        rw [lines, List.filter_map, List.filter_map, List.map_map, List.map_map]
        simp only [Function.comp_def, hb, trim_eq, String.toList_ofList]

theorem trimmedLines_trim (text : String) : trimmedLines (trim text) = trimmedLines text := by
  have ht : trim (trim text) = trim text := by
    rw [trim_eq, toList_trim, trimChars_trimChars, trim_eq]
  rw [trimmedLines, ht, trimmedLines]

theorem isBlankText_append (a b : String) :
    isBlankText (a ++ b) = (isBlankText a && isBlankText b) := by
  rw [isBlankText, String.toList_append, List.all_append]
  rfl

theorem trimmedLines_eq_nil {text : String} (h : isBlankText text = true) :
    trimmedLines text = [] := by
  rw [trimmedLines, lines, toList_trim, (trimChars_eq_nil_iff _).mpr h]
  rfl

/-- Lines without blanks around them come apart again after they are joined. -/
theorem trimmedPieces_intercalate {ls : List (List Char)} (hne : ls ≠ [])
    (hn : ∀ l ∈ ls, '\n' ∉ l) (ht : ∀ l ∈ ls, trimChars l = l) :
    trimmedPieces (['\n'].intercalate ls) = ls := by
  rw [trimmedPieces, List.splitOn_intercalate '\n' hn hne, List.map_congr_left ht, List.map_id']

/-- The lines of a text that is not blank have no blanks around them, and neither the first nor the
last one is empty. -/
theorem exists_trimmedLines_eq {text : String} (h : isBlankText text = false) : ∃ ls,
    trimmedLines text = ls.map String.ofList ∧ ls ≠ [] ∧ (∀ l ∈ ls, '\n' ∉ l) ∧
      (∀ l ∈ ls, trimChars l = l) ∧ dropEmptyEnds ls = ls ∧
      ∀ l, ls = [l] → (trim text).toList = l := by
  have hc : trimChars text.toList ≠ [] := fun he ↦
    Bool.false_ne_true (h.symm.trans ((trimChars_eq_nil_iff _).mp he))
  have hd := dropEmptyEnds_trimmedPieces_of_isTrimmed (isTrimmed_trimChars text.toList) hc
  refine ⟨trimmedPieces (trimChars text.toList), ?_, ?_, ?_, ?_, hd, ?_⟩
  · rw [← trimmedLines_trim, trimmedLines_eq, toList_trim, hd]
  · simp [trimmedPieces, List.splitOn_ne_nil]
  · intro l hl hm
    obtain ⟨piece, hp, rfl⟩ := List.mem_map.mp hl
    obtain ⟨front, back, -, -, he⟩ := exists_append_trimChars piece
    refine not_mem_of_mem_splitOn hp (he ▸ ?_)
    exact List.mem_append_left _ (List.mem_append_right _ hm)
  · intro l hl
    obtain ⟨piece, -, rfl⟩ := List.mem_map.mp hl
    exact trimChars_trimChars piece
  · intro l hl
    obtain ⟨piece, hp, rfl⟩ := List.map_eq_singleton_iff.mp hl
    have hj : ['\n'].intercalate ((trimChars text.toList).splitOn '\n') = trimChars text.toList :=
      List.intercalate_splitOn '\n'
    rw [hp, List.intercalate_singleton] at hj
    rw [toList_trim, hj, trimChars_trimChars]

end RpcForge.Text

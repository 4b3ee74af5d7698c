import RpcForge.Package.PythonClient
import RpcForge.Proofs.Code.Writer
import RpcForge.Proofs.Text.Escaping

/-!
# Docstrings

A docstring is read back as Python reads it: from the three quotes that open it to the first three
that close it. Three quotes in a row are escaped, one or two are not, so it matters what stands
right in front of the closing quotes: a line feed behind several lines, but the last character of
the text behind a single one.

Only the literal is read here. What Python does to a whole source before that is left out: it takes
a lone carriage return for a line feed, and it refuses a source with the null character in it.
-/

namespace RpcForge.Comment

open RpcForge.Text
open CodeWriter (indented indented_append indented_cons_of_ne indented_false_cons_of_ne
  indented_false_eq indented_lineFeed_cons exists_of_indented_false_eq_cons startsLine_false_eq
  trimmedPieces_indented)

/-! ## Escaping -/

/-- Characters as they stand between triple quotes. -/
def escapeChars : List Char → List Char
  | '"' :: '"' :: '"' :: cs => '\\' :: '"' :: '\\' :: '"' :: '\\' :: '"' :: escapeChars cs
  | '\\' :: cs => '\\' :: '\\' :: escapeChars cs
  | c :: cs => c :: escapeChars cs
  | [] => []

/-- How many quotes stand at the end of the characters. -/
def quotesAtEnd (cs : List Char) : Nat :=
  (cs.rtakeWhile (· == '"')).length

/-- The characters behind given ones cannot complete three quotes that begin in front of them. -/
def Apart (cs rest : List Char) : Prop :=
  rest.head? ≠ some '"' ∨ 3 ∣ quotesAtEnd cs

/-- The first of the characters do not form three quotes. -/
def NotThree (c : Char) (cs : List Char) : Prop :=
  ∀ rest, c = '"' → cs = '"' :: '"' :: rest → False

private theorem escapeChars_three (cs : List Char) :
    escapeChars ('"' :: '"' :: '"' :: cs) =
      '\\' :: '"' :: '\\' :: '"' :: '\\' :: '"' :: escapeChars cs :=
  rfl

private theorem escapeChars_backslash (cs : List Char) :
    escapeChars ('\\' :: cs) = '\\' :: '\\' :: escapeChars cs :=
  rfl

/-- A character that neither begins three quotes nor is a backslash is kept. -/
private theorem escapeChars_cons {c : Char} {cs : List Char} (hn : NotThree c cs) (hb : c ≠ '\\') :
    escapeChars (c :: cs) = c :: escapeChars cs := by
  rw [escapeChars]
  · exact hn
  · exact hb

/-- Induction over what is escaped at once: three quotes, a backslash, or nothing. -/
@[elab_as_elim]
theorem escapeChars_induction {motive : List Char → Prop}
    (three : ∀ cs, motive cs → motive ('"' :: '"' :: '"' :: cs))
    (backslash : ∀ cs, motive cs → motive ('\\' :: cs))
    (other : ∀ c cs, NotThree c cs → c ≠ '\\' → motive cs → motive (c :: cs))
    (nil : motive []) (cs : List Char) : motive cs :=
  escapeChars.induct motive three backslash other nil cs

private theorem quotesAtEnd_of_all {cs : List Char} (h : cs.all (· == '"') = true) :
    quotesAtEnd cs = cs.length := by
  rw [quotesAtEnd, List.rtakeWhile_eq_self_iff.mpr (List.all_eq_true.mp h)]

private theorem quotesAtEnd_cons (c : Char) (cs : List Char) :
    quotesAtEnd (c :: cs) =
      if cs.all (· == '"') then cs.length + (if c = '"' then 1 else 0) else quotesAtEnd cs := by
  rw [quotesAtEnd, List.rtakeWhile, List.reverse_cons, List.takeWhile_append]
  by_cases h : cs.all (· == '"') = true
  · have ht : cs.reverse.takeWhile (· == '"') = cs.reverse := by
      rw [List.takeWhile_eq_self_iff]
      simpa using h
    rw [ht, if_pos rfl, if_pos h]
    by_cases hc : c = '"' <;> simp [hc]
  · have ht : (cs.reverse.takeWhile (· == '"')).length ≠ cs.reverse.length := by
      intro he
      refine h (List.all_eq_true.mpr fun c hc ↦ ?_)
      have hs := (List.takeWhile_prefix (· == '"')).eq_of_length he
      exact List.takeWhile_eq_self_iff.mp hs c (List.mem_reverse.mpr hc)
    rw [if_neg ht, if_neg h, quotesAtEnd, List.rtakeWhile]

private theorem Apart.of_three {cs rest : List Char} (h : Apart ('"' :: '"' :: '"' :: cs) rest) :
    Apart cs rest := by
  refine h.imp_right fun h ↦ ?_
  by_cases ha : cs.all (· == '"') = true
  · rw [quotesAtEnd_of_all (by simpa using ha)] at h
    rw [quotesAtEnd_of_all ha]
    simpa using h
  · simpa [quotesAtEnd_cons, ha] using h

private theorem Apart.of_cons {c : Char} {cs rest : List Char} (hn : NotThree c cs)
    (h : Apart (c :: cs) rest) : Apart cs rest := by
  refine h.imp_right fun h ↦ ?_
  rw [quotesAtEnd_cons] at h
  split at h
  · next ha =>
    rw [quotesAtEnd_of_all ha]
    by_cases hc : c = '"'
    · rw [if_pos hc] at h
      match cs, ha, hn, h with
      | [], _, _, _ => exact Nat.dvd_zero 3
      | [_], _, _, h => simp at h
      | d :: e :: cs, ha, hn, _ =>
        simp only [List.all_cons, Bool.and_eq_true, beq_iff_eq] at ha
        obtain ⟨rfl, rfl, -⟩ := ha
        exact (hn cs hc rfl).elim
    · simpa [hc] using h
  · exact h

private theorem Apart.notThree {c : Char} {cs rest : List Char} (hn : NotThree c cs)
    (h : Apart (c :: cs) rest) : NotThree c (cs ++ rest) := by
  rintro last rfl he
  match cs, hn, he with
  | [], _, he =>
    rw [List.nil_append] at he
    subst he
    rcases h with h | h
    · exact h rfl
    · revert h
      decide
  | [d], _, he =>
    obtain ⟨rfl, rfl⟩ := List.cons.inj he
    rcases h with h | h
    · exact h rfl
    · revert h
      decide
  | d :: e :: cs, hn, he =>
    simp only [List.cons_append, List.cons.injEq] at he
    obtain ⟨rfl, rfl, -⟩ := he
    exact hn cs rfl rfl

private theorem quotesAtEnd_eq_zero {cs : List Char} (h : cs.getLast? ≠ some '"') :
    quotesAtEnd cs = 0 := by
  rw [quotesAtEnd, List.length_eq_zero_iff, List.rtakeWhile_eq_nil_iff]
  intro hn hl
  rw [List.getLast?_eq_some_getLast hn, beq_iff_eq.mp hl] at h
  exact h rfl

private theorem quotesAtEnd_append_replicate {cs : List Char} (h : quotesAtEnd cs = 0) (n : Nat) :
    quotesAtEnd (cs ++ List.replicate n '"') = n := by
  induction n with
  | zero => simpa using h
  | succ n ih =>
    rw [quotesAtEnd] at ih
    rw [List.replicate_succ', ← List.append_assoc, quotesAtEnd,
      List.rtakeWhile_concat_pos _ _ _ (by rfl), List.length_append, ih]
    rfl

/-- The quotes at the end are three by three, up to two more. -/
private theorem exists_append_quotes (cs : List Char) : ∃ front n, n < 3 ∧
    cs = front ++ List.replicate n '"' ∧ 3 ∣ quotesAtEnd front ∧ (n = 0 ↔ 3 ∣ quotesAtEnd cs) := by
  have hs := List.rdropWhile_append_rtakeWhile (p := (· == '"')) (l := cs)
  have hz : quotesAtEnd (cs.rdropWhile (· == '"')) = 0 := by
    refine quotesAtEnd_eq_zero fun h ↦ ?_
    have hn : cs.rdropWhile (· == '"') ≠ [] := by
      rintro he
      rw [he] at h
      cases h
    refine List.rdropWhile_last_not (· == '"') cs hn ?_
    rw [List.getLast?_eq_some_getLast hn] at h
    rw [Option.some.inj h]
    rfl
  have hr : cs.rtakeWhile (· == '"') = List.replicate (quotesAtEnd cs) '"' :=
    List.eq_replicate_iff.mpr ⟨rfl, fun c hc ↦
      beq_iff_eq.mp (List.mem_rtakeWhile_imp (p := (· == '"')) hc)⟩
  refine ⟨cs.rdropWhile (· == '"') ++ List.replicate (3 * (quotesAtEnd cs / 3)) '"',
    quotesAtEnd cs % 3, Nat.mod_lt _ (by decide), ?_, ?_, ?_⟩
  · rw [List.append_assoc, ← List.replicate_add, Nat.div_add_mod, ← hr, hs]
  · rw [quotesAtEnd_append_replicate hz]
    exact Nat.dvd_mul_right _ _
  · exact Nat.dvd_iff_mod_eq_zero.symm

/-- Characters are escaped one part after the other where the parts are apart. -/
private theorem escapeChars_append {cs rest : List Char} (h : Apart cs rest) :
    escapeChars (cs ++ rest) = escapeChars cs ++ escapeChars rest := by
  induction cs using escapeChars_induction with
  | three cs ih => simp only [List.cons_append, escapeChars_three, ih h.of_three]
  | backslash cs ih =>
    simp only [List.cons_append, escapeChars_backslash, ih (h.of_cons fun _ hc ↦ by cases hc)]
  | other c cs hn hb ih =>
    rw [List.cons_append, escapeChars_cons (h.notThree hn) hb, escapeChars_cons hn hb,
      ih (h.of_cons hn), List.cons_append]
  | nil => rfl

private theorem toList_tripleQuote : tripleQuote.toList = ['"', '"', '"'] := rfl

/-- Characters with their backslashes doubled. -/
def doubled (cs : List Char) : List Char :=
  cs.flatMap fun c ↦ if c = '\\' then ['\\', '\\'] else [c]

private theorem exists_of_doubled_eq_cons {cs last : List Char} (h : doubled cs = '"' :: last) :
    ∃ rest, cs = '"' :: rest ∧ last = doubled rest := by
  cases cs with
  | nil => cases h
  | cons c cs =>
    rw [doubled, List.flatMap_cons, ← doubled] at h
    by_cases hc : c = '\\'
    · rw [if_pos hc] at h
      cases h
    · rw [if_neg hc, List.singleton_append] at h
      obtain ⟨rfl, rfl⟩ := List.cons.inj h
      exact ⟨cs, rfl, rfl⟩

private theorem escapeChars_replicate :
    ∀ n < 3, escapeChars (List.replicate n '"') = List.replicate n '"'
  | 0, _ => rfl
  | 1, _ => rfl
  | 2, _ => rfl

/-- Backslashes are doubled first and three quotes are escaped after that, but none of the two gets
in the way of the other. -/
private theorem replaceFrom_doubled (cs : List Char) :
    replaceFrom ['"', '"', '"'] ['\\', '"', '\\', '"', '\\', '"'] 0 (doubled cs) =
      escapeChars cs := by
  induction cs using escapeChars_induction with
  | three cs ih =>
    rw [escapeChars_three, ← ih]
    rfl
  | backslash cs ih =>
    rw [escapeChars_backslash, ← ih]
    rfl
  | other c cs hn hb ih =>
    rw [escapeChars_cons hn hb, ← ih, doubled, List.flatMap_cons, if_neg hb,
      List.singleton_append, ← doubled]
    refine replaceFrom_elsewhere ?_
    rw [Bool.eq_false_iff, ne_eq, List.isPrefixOf_iff_prefix]
    rintro ⟨rest, hr⟩
    obtain ⟨hc, hd⟩ := List.cons.inj hr
    obtain ⟨cs', rfl, hd'⟩ := exists_of_doubled_eq_cons hd.symm
    obtain ⟨cs'', rfl, -⟩ := exists_of_doubled_eq_cons hd'.symm
    exact hn cs'' hc.symm rfl
  | nil => rfl

private theorem escapeChars_eq_replaceFrom (cs : List Char) :
    escapeChars cs =
      replaceFrom ['"', '"', '"'] ['\\', '"', '\\', '"', '\\', '"'] 0
        (replaceFrom ['\\'] ['\\', '\\'] 0 cs) :=
  ((congrArg _ (replaceFrom_singleton '\\' _ cs)).trans (replaceFrom_doubled cs)).symm

private theorem toList_escapeDocstring (text : String) :
    (escapeDocstring text).toList = escapeChars text.toList := by
  rw [escapeDocstring, toList_replace (by decide), toList_replace (by decide)]
  exact (escapeChars_eq_replaceFrom _).symm

private theorem keepsBlanks_escapeChars : KeepsBlanks escapeChars := by
  have hb : KeepsBlanks (replaceFrom ['\\'] ['\\', '\\'] 0) :=
    keepsBlanks_replaceFrom (by simp) (by simp) (by decide) (by decide)
  have hq : KeepsBlanks
      (replaceFrom ['"', '"', '"'] ['\\', '"', '\\', '"', '\\', '"'] 0) :=
    keepsBlanks_replaceFrom (by simp) (by simp) (by decide) (by decide)
  rw [funext escapeChars_eq_replaceFrom]
  exact hb.comp hq

/-- The lines of a docstring are those of the text, each escaped. -/
theorem docstringLines_eq (text : String) :
    docstringLines text = (trimmedLines text).map escapeDocstring := by
  rw [docstringLines, ← keepsBlanks_escapeChars.trim toList_escapeDocstring,
    ← keepsBlanks_escapeChars.trimmedLines toList_escapeDocstring, trimmedLines]

private theorem escapeChars_cons_of_ne {c : Char} (hq : c ≠ '"') (hb : c ≠ '\\') (cs : List Char) :
    escapeChars (c :: cs) = c :: escapeChars cs :=
  escapeChars_cons (fun _ h ↦ absurd h hq) hb

/-- A quote at the start comes from one. -/
private theorem exists_of_escapeChars_append_eq_cons {cs rest last : List Char}
    (h : escapeChars cs ++ rest = '"' :: last) : ∃ cs' rest',
      cs ++ rest = '"' :: (cs' ++ rest') ∧ last = escapeChars cs' ++ rest' := by
  induction cs using escapeChars_induction with
  | three cs => cases h
  | backslash cs => cases h
  | other c cs hn hb =>
    rw [escapeChars_cons hn hb, List.cons_append] at h
    obtain ⟨rfl, rfl⟩ := List.cons.inj h
    exact ⟨cs, rest, rfl, rfl⟩
  | nil => exact ⟨[], last, h, rfl⟩

/-! ## Reading -/

/-- What a character behind a backslash stands for together with it. Escapes by number or by name
are not read. -/
def escaped? (c : Char) : Option (List Char) :=
  match c with
  | '\n' => some []
  | '\\' => some ['\\']
  | '"' => some ['"']
  | '\x27' => some ['\x27']
  | 'a' => some ['\x07']
  | 'b' => some ['\x08']
  | 'f' => some ['\x0c']
  | 'n' => some ['\n']
  | 'r' => some ['\r']
  | 't' => some ['\t']
  | 'v' => some ['\x0b']
  | 'x' | 'u' | 'U' | 'N' => none
  | c => if c.isDigit then none else some ['\\', c]

/-- The value of what stands in front of the first three quotes of which none is escaped, and what
stands behind them. A character that no backslash is in front of stands for itself, also a carriage
return or the null character. -/
def readTriple : List Char → Option (List Char × List Char)
  | '"' :: '"' :: '"' :: rest => some ([], rest)
  | '\\' :: c :: rest =>
    (escaped? c).bind fun value ↦ (readTriple rest).map (Prod.map (value ++ ·) id)
  | ['\\'] => none
  | c :: rest => (readTriple rest).map (Prod.map (c :: ·) id)
  | [] => none

/-- The value of a line, or of several ones, with nothing but a text between three quotes. -/
def value? (written : String) : Option String :=
  match written.toList.dropWhile (· == ' ') with
  | '"' :: '"' :: '"' :: rest =>
    (readTriple rest).bind fun (value, behind) ↦
      if behind = ['\n'] then some (String.ofList value) else none
  | _ => none

private theorem readTriple_cons {c : Char} {cs : List Char} (hn : NotThree c cs) (hb : c ≠ '\\') :
    readTriple (c :: cs) = (readTriple cs).map (Prod.map (c :: ·) id) := by
  rw [readTriple]
  · exact hn
  · exact fun _ _ h ↦ absurd h hb
  · exact fun h ↦ absurd h hb

/-- Escaped characters are read back if they are apart from what stands behind them. -/
private theorem readTriple_escapeChars {cs rest : List Char} (h : Apart cs rest) :
    readTriple (escapeChars cs ++ rest) = (readTriple rest).map (Prod.map (cs ++ ·) id) := by
  induction cs using escapeChars_induction with
  | three cs ih =>
    rw [escapeChars_three]
    simp only [List.cons_append, readTriple, escaped?, Option.bind_some, ih h.of_three,
      Option.map_map]
    rfl
  | backslash cs ih =>
    rw [escapeChars_backslash]
    simp only [List.cons_append, readTriple, escaped?, Option.bind_some,
      ih (h.of_cons fun _ hc ↦ by cases hc), Option.map_map]
    rfl
  | other c cs hn hb ih =>
    have ht : NotThree c (escapeChars cs ++ rest) := by
      rintro last hc he
      obtain ⟨cs', rest', hs, hd⟩ := exists_of_escapeChars_append_eq_cons he
      obtain ⟨cs'', rest'', hs', -⟩ := exists_of_escapeChars_append_eq_cons hd.symm
      exact h.notThree hn _ hc (hs.trans (congrArg _ hs'))
    rw [escapeChars_cons hn hb, List.cons_append, readTriple_cons ht hb, ih (h.of_cons hn),
      Option.map_map]
    rfl
  | nil =>
    change readTriple rest = _
    cases readTriple rest <;> rfl

/-- Whatever quotes are left in front, the first three of all of them close the text. -/
private theorem readTriple_quotes : ∀ n < 3,
    readTriple (List.replicate n '"' ++ (tripleQuote.toList ++ ['\n'])) =
      some ([], List.replicate n '"' ++ ['\n'])
  | 0, _ => rfl
  | 1, _ => rfl
  | 2, _ => rfl

/-! ## Layout -/

/-- What stands between the text and the quotes that close it: several lines are ended. -/
def beforeClosing (ls : List (List Char)) : List Char :=
  match ls with
  | [_] => []
  | _ => ['\n']

private theorem docstring_of_line {text line : String} (h : docstringLines text = [line]) :
    docstring text = [tripleQuote ++ line ++ tripleQuote].map .line := by
  unfold docstring
  rw [h, List.map_singleton]

private theorem docstring_of_lines {text first second : String} {rest : List String}
    (h : docstringLines text = first :: second :: rest) :
    docstring text =
      ((tripleQuote ++ first) :: (second :: rest) ++ [tripleQuote]).map .line := by
  unfold docstring
  rw [h]
  simp

/-- A docstring is written as one text: the escaped lines between triple quotes. -/
private theorem runAll_docstring {text : String} {ls : List (List Char)}
    (h : trimmedLines text = ls.map String.ofList) (hne : ls ≠ []) (w : CodeWriter) :
    Code.runAll w (docstring text) =
      (tripleQuote.toList ++ (escapeChars (['\n'].intercalate ls) ++
        (beforeClosing ls ++ tripleQuote.toList ++ ['\n']))).foldl CodeWriter.put w := by
  have hs : docstringLines text = (ls.map escapeChars).map String.ofList := by
    rw [docstringLines_eq, h, List.map_map, List.map_map]
    refine List.map_congr_left fun l _ ↦ ?_
    rw [Function.comp_apply, Function.comp_apply, ← String.toList_inj, toList_escapeDocstring,
      String.toList_ofList, String.toList_ofList]
  rw [keepsBlanks_escapeChars.intercalate]
  cases ls with
  | nil => exact absurd rfl hne
  | cons l ls =>
    cases ls with
    | nil =>
      rw [docstring_of_line hs, Code.runAll_map_line]
      refine congrArg (List.foldl CodeWriter.put w) ?_
      simp [beforeClosing]
    | cons l' ls =>
      rw [docstring_of_lines hs, Code.runAll_map_line]
      refine congrArg (List.foldl CodeWriter.put w) ?_
      have hb : beforeClosing (l :: l' :: ls) = ['\n'] := rfl
      rw [List.map_cons, hb, List.append_assoc, List.singleton_append, intercalate_append_lineFeed]
      simp [List.flatMap_map]

/-! ## Indentation -/

/-- Indentation and escaping do not get in the way of each other. -/
private theorem escapeChars_indented {indentation : List Char}
    (hb : ∀ c ∈ indentation, isBlank c = true) (atStart : Bool) (cs : List Char) :
    escapeChars (indented indentation atStart cs) =
      indented indentation atStart (escapeChars cs) := by
  have hi (atStart : Bool) (rest : List Char) :
      escapeChars ((if atStart then indentation else []) ++ rest) =
        (if atStart then indentation else []) ++ escapeChars rest := by
    cases atStart with
    | true => exact keepsBlanks_escapeChars.blanks_append hb rest
    | false => rfl
  induction cs using escapeChars_induction generalizing atStart with
  | three cs ih =>
    have hq : '"' ≠ '\n' := by decide
    have hs : '\\' ≠ '\n' := by decide
    rw [indented_cons_of_ne hq, indented_false_cons_of_ne hq, indented_false_cons_of_ne hq, hi,
      escapeChars_three, ih false, escapeChars_three, indented_cons_of_ne hs]
    iterate 5 rw [indented_false_cons_of_ne (by decide)]
  | backslash cs ih =>
    have hs : '\\' ≠ '\n' := by decide
    rw [indented_cons_of_ne hs, hi, escapeChars_backslash, ih false, escapeChars_backslash,
      indented_cons_of_ne hs, indented_false_cons_of_ne hs]
  | other c cs hn hb' ih =>
    rw [escapeChars_cons hn hb']
    by_cases hc : c = '\n'
    · subst hc
      rw [indented_lineFeed_cons, indented_lineFeed_cons,
        escapeChars_cons_of_ne (by decide) (by decide), ih true]
    · have ht : NotThree c (indented indentation false cs) := by
        intro rest hq hr
        obtain ⟨cs', rfl, hr'⟩ := exists_of_indented_false_eq_cons (by decide) hr
        obtain ⟨cs'', rfl, -⟩ := exists_of_indented_false_eq_cons (by decide) hr'.symm
        exact hn cs'' hq rfl
      rw [indented_cons_of_ne hc, indented_cons_of_ne hc, hi, escapeChars_cons ht hb', ih false]
  | nil => rfl

/-! ## Written docstrings -/

section

variable {w : CodeWriter} (unit : w.unit = PythonClient.indentation)
  (start : w.atLineStart = true)

include unit in
private theorem eq_of_mem_indentation {c : Char} (h : c ∈ w.indentation) : c = ' ' :=
  (CodeWriter.indentsByBlanks_of_all (by rw [unit]; decide)).eq_of_mem h

include unit start in
/-- Indentation in front of a docstring does not count. -/
private theorem value?_since (rest : List Char) :
    value? (((tripleQuote.toList ++ rest).foldl CodeWriter.put w).since w) =
      (readTriple (indented w.indentation false rest)).bind fun (value, behind) ↦
        if behind = ['\n'] then some (String.ofList value) else none := by
  have hd : (w.indentation ++ '"' :: '"' :: '"' :: indented w.indentation false rest).dropWhile
      (· == ' ') = '"' :: '"' :: '"' :: indented w.indentation false rest := by
    rw [List.dropWhile_append_of_pos fun c hc ↦ by simp [eq_of_mem_indentation unit hc]]
    rfl
  have hq : '"' ≠ '\n' := by decide
  rw [CodeWriter.since_foldl_put, start, toList_tripleQuote, value?, String.toList_ofList]
  rw [List.cons_append, List.cons_append, List.cons_append, List.nil_append,
    indented_cons_of_ne hq, indented_false_cons_of_ne hq, indented_false_cons_of_ne hq, if_pos rfl,
    hd]
  rfl

include unit start in
/-- A docstring of several lines is read back: behind them the quotes stand on a line of their
own. -/
private theorem value?_docstring_of_lines {text : String} {l l' : List Char} {ls : List (List Char)}
    (h : trimmedLines text = (l :: l' :: ls).map String.ofList) :
    value? ((Code.runAll w (docstring text)).since w) =
      some (String.ofList (indented w.indentation false (['\n'].intercalate (l :: l' :: ls)) ++
        '\n' :: w.indentation)) := by
  have hb (c : Char) (hc : c ∈ w.indentation) : isBlank c = true := by
    rw [eq_of_mem_indentation unit hc]
    decide
  have hc : beforeClosing (l :: l' :: ls) = ['\n'] := rfl
  have hq : '"' ≠ '\n' := by decide
  generalize hl : ['\n'].intercalate (l :: l' :: ls) = content
  -- the indentation in front of the closing quotes belongs to the value
  have hr : indented w.indentation false
      (escapeChars content ++ (['\n'] ++ tripleQuote.toList ++ ['\n'])) =
      escapeChars (indented w.indentation false content ++ '\n' :: w.indentation) ++
        (tripleQuote.toList ++ ['\n']) := by
    rw [indented_append,
      keepsBlanks_escapeChars.append_blanks (List.forall_mem_cons.mpr ⟨by decide, hb⟩),
      escapeChars_indented hb, List.append_assoc, List.append_assoc, List.singleton_append,
      indented_lineFeed_cons, toList_tripleQuote, List.cons_append, indented_cons_of_ne hq]
    rfl
  have hread : readTriple (tripleQuote.toList ++ ['\n']) = some ([], ['\n']) := rfl
  have hz : quotesAtEnd (indented w.indentation false content ++ '\n' :: w.indentation) = 0 := by
    refine quotesAtEnd_eq_zero fun he ↦ ?_
    rw [List.getLast?_append_cons] at he
    rcases List.mem_cons.mp (List.mem_of_getLast? he) with hm | hm
    · exact absurd hm (by decide)
    · exact absurd (eq_of_mem_indentation unit hm) (by decide)
  rw [runAll_docstring h (by simp), hl, hc, value?_since unit start, hr,
    readTriple_escapeChars (.inr (hz ▸ Nat.dvd_zero 3)), hread]
  simp

include unit start in
/-- A docstring of a single line is read back if no quote is left at its end after three by three
were escaped. -/
private theorem value?_docstring_of_line {text : String} {l : List Char}
    (h : trimmedLines text = [String.ofList l]) (hn : '\n' ∉ l) :
    value? ((Code.runAll w (docstring text)).since w) =
      if 3 ∣ quotesAtEnd l then some (String.ofList l) else none := by
  have he : '\n' ∉ escapeChars l := fun hm ↦ hn (keepsBlanks_escapeChars.mem hm (by decide))
  have hq : '"' ≠ '\n' := by decide
  have hr : indented w.indentation false
      (escapeChars l ++ (beforeClosing [l] ++ tripleQuote.toList ++ ['\n'])) =
      escapeChars l ++ (tripleQuote.toList ++ ['\n']) := by
    rw [indented_append, indented_false_eq he, startsLine_false_eq he]
    rfl
  obtain ⟨front, n, hlt, hl, hf, hz⟩ := exists_append_quotes l
  have hes : escapeChars l = escapeChars front ++ List.replicate n '"' := by
    rw [hl, escapeChars_append (.inr hf), escapeChars_replicate n hlt]
  have hm : trimmedLines text = [l].map String.ofList := h
  rw [runAll_docstring hm (by simp), List.intercalate_singleton,
    value?_since unit start, hr, hes, List.append_assoc, readTriple_escapeChars (.inr hf),
    readTriple_quotes n hlt]
  by_cases h3 : 3 ∣ quotesAtEnd l
  · obtain rfl := hz.mpr h3
    rw [if_pos h3, hl]
    simp
  · rw [if_neg h3]
    have hn : n ≠ 0 := fun h ↦ h3 (hz.mp h)
    simp [hn]

include unit in
/-- What is between the quotes of a docstring of several lines has the lines of the text. -/
private theorem trimmedLines_value {ls : List (List Char)} (hne : ls ≠ []) (hn : ∀ l ∈ ls, '\n' ∉ l)
    (ht : ∀ l ∈ ls, trimChars l = l) (hd : dropEmptyEnds ls = ls) :
    trimmedLines (String.ofList (indented w.indentation false (['\n'].intercalate ls) ++
      '\n' :: w.indentation)) = ls.map String.ofList := by
  have hs {c : Char} (hc : c ∈ w.indentation) : c = ' ' := eq_of_mem_indentation unit hc
  have hb : ∀ c ∈ '\n' :: w.indentation, isBlank c = true := by
    intro c hc
    rcases List.mem_cons.mp hc with rfl | hc
    · decide
    · rw [hs hc]
      decide
  have hi : '\n' ∉ w.indentation := fun hm ↦ absurd (hs hm) (by decide)
  have hp := trimmedPieces_indented (fun c hc ↦ hb c (.tail _ hc)) hi (['\n'].intercalate ls)
  rw [trimmedLines_eq, String.toList_ofList]
  refine congrArg (List.map String.ofList) ?_
  have hdrop := dropEmptyEnds_trimmedPieces_between (List.forall_mem_nil _) hb
    (indented w.indentation false (['\n'].intercalate ls))
  rw [List.nil_append] at hdrop
  rw [hdrop, hp, trimmedPieces_intercalate hne hn ht, hd]

end

/-- At the start of a line nothing is written for a blank text. For any other one, what is written
is one text between triple quotes with the lines of the text as its value, exactly if there are
several lines or if no quote is left at the end of the text after three by three were escaped. -/
theorem docstring_value_iff {w : CodeWriter} (unit : w.unit = PythonClient.indentation)
    (start : w.atLineStart = true) (text : String) :
    (isBlankText text = true → (Code.runAll w (docstring text)).since w = "") ∧
      (isBlankText text = false →
        ((∃ value, value? ((Code.runAll w (docstring text)).since w) = some value ∧
            trimmedLines value = trimmedLines text) ↔
          (trimmedLines text).length ≠ 1 ∨ 3 ∣ quotesAtEnd (trim text).toList)) := by
  constructor
  · intro h
    unfold docstring
    rw [docstringLines_eq, trimmedLines_eq_nil h]
    simp [Code.runAll, CodeWriter.since]
  · intro h
    obtain ⟨ls, hls, hne, hn, ht, hd, hsole⟩ := exists_trimmedLines_eq h
    cases ls with
    | nil => exact absurd rfl hne
    | cons l ls =>
      cases ls with
      | nil =>
        rw [value?_docstring_of_line unit start hls (hn l (.head _)), hls, hsole l rfl]
        by_cases h3 : 3 ∣ quotesAtEnd l
        · have hv : trimmedLines (String.ofList l) = [String.ofList l] := by
            rw [← hsole l rfl, String.ofList_toList, trimmedLines_trim, hls, ← hsole l rfl]
            simp
          simp [h3, hv]
        · simp [h3]
      | cons l' ls =>
        rw [value?_docstring_of_lines unit start hls]
        refine iff_of_true ⟨_, rfl, ?_⟩ (.inl (by simp [hls]))
        rw [trimmedLines_value unit hne hn ht hd, hls]

/-- A text of several lines may end in quotes. -/
theorem docstring_value_lines :
    ∃ value,
      value? ((Code.runAll { unit := PythonClient.indentation, level := 2 }
        (docstring "Greets someone.\n\n  Say \"\"\"hello\"\"")).since
          { unit := PythonClient.indentation, level := 2 }) = some value ∧
      trimmedLines value = trimmedLines "Greets someone.\n\n  Say \"\"\"hello\"\"" :=
  ((docstring_value_iff rfl rfl _).2 (by decide)).mpr (.inl (by decide))

/-- A single line that ends in a quote is written with four quotes at its end, of which the first
three close the docstring. -/
theorem exists_docstring_without_value :
    ∃ text, isBlankText text = false ∧
      (Code.runAll { unit := PythonClient.indentation, level := 2 } (docstring text)).since
        { unit := PythonClient.indentation, level := 2 } = "        \"\"\"Say \"hello\"\"\"\"\n" ∧
      ¬ ∃ value,
        value? ((Code.runAll { unit := PythonClient.indentation, level := 2 }
          (docstring text)).since { unit := PythonClient.indentation, level := 2 }) =
            some value := by
  refine ⟨"Say \"hello\"", by decide, by decide +kernel, ?_⟩
  rw [← Option.isSome_iff_exists]
  decide +kernel

end RpcForge.Comment

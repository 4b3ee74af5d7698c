import Mathlib.Data.List.Basic
import RpcForge.Proofs.Text.Lines
import RpcForge.Proofs.Text.Parts
import RpcForge.Code.Writer

/-!
# What a writer writes

Whatever is written, only indentation is added to it: in front of what comes first on a line. All
code but indented code is written as one text at the level where the writer stands.
-/

namespace RpcForge

namespace CodeWriter

open RpcForge.Text

/-- What was written since the writer was in an earlier state. -/
def since (w start : CodeWriter) : String :=
  String.ofList (w.written.take (w.written.length - start.written.length)).reverse

/-- Characters with the indentation that is written in front of the lines. An empty line gets none;
the first line only gets it if the writer stands at the start of a line. -/
def indented (indentation : List Char) : Bool → List Char → List Char
  | _, [] => []
  | atStart, c :: cs =>
    if c = '\n' then '\n' :: indented indentation true cs
    else (if atStart then indentation else []) ++ c :: indented indentation false cs

/-- Whether a writer stands at the start of a line behind the characters. -/
def startsLine (atStart : Bool) (cs : List Char) : Bool :=
  cs.foldl (fun _ c ↦ c == '\n') atStart

theorem indented_append (indentation : List Char) (atStart : Bool) (front back : List Char) :
    indented indentation atStart (front ++ back) =
      indented indentation atStart front ++
        indented indentation (startsLine atStart front) back := by
  induction front generalizing atStart with
  | nil => rfl
  | cons c front ih =>
    rw [List.cons_append, indented, indented, startsLine, List.foldl_cons, ← startsLine]
    by_cases hc : c = '\n'
    · rw [if_pos hc, if_pos hc, ih, hc]
      rfl
    · rw [if_neg hc, if_neg hc, ih, beq_eq_false_iff_ne.mpr hc, List.append_assoc, List.cons_append]

theorem indented_lineFeed_cons (indentation : List Char) (atStart : Bool) (cs : List Char) :
    indented indentation atStart ('\n' :: cs) = '\n' :: indented indentation true cs := by
  rw [indented, if_pos rfl]

theorem indented_cons_of_ne {c : Char} (h : c ≠ '\n') (indentation : List Char) (atStart : Bool)
    (cs : List Char) :
    indented indentation atStart (c :: cs) =
      (if atStart then indentation else []) ++ c :: indented indentation false cs := by
  rw [indented, if_neg h]

theorem indented_false_cons_of_ne {c : Char} (h : c ≠ '\n') (indentation cs : List Char) :
    indented indentation false (c :: cs) = c :: indented indentation false cs :=
  indented_cons_of_ne h indentation false cs

/-- Behind the start of a line, what comes first comes from the characters. -/
theorem exists_of_indented_false_eq_cons {indentation cs last : List Char} {c : Char}
    (hc : c ≠ '\n') (h : indented indentation false cs = c :: last) :
    ∃ rest, cs = c :: rest ∧ last = indented indentation false rest := by
  cases cs with
  | nil => cases h
  | cons d cs =>
    by_cases hd : d = '\n'
    · subst hd
      rw [indented_lineFeed_cons] at h
      exact absurd (List.cons.inj h).1.symm hc
    · rw [indented_false_cons_of_ne hd] at h
      obtain ⟨rfl, rfl⟩ := List.cons.inj h
      exact ⟨cs, rfl, rfl⟩

/-- Characters without line feeds are left as they are behind the start of a line. -/
theorem indented_false_eq {cs : List Char} (h : '\n' ∉ cs) (indentation : List Char) :
    indented indentation false cs = cs := by
  induction cs with
  | nil => rfl
  | cons c cs ih =>
    rw [List.mem_cons, not_or] at h
    rw [indented_false_cons_of_ne (Ne.symm h.1), ih h.2]

theorem startsLine_false_eq {cs : List Char} (h : '\n' ∉ cs) : startsLine false cs = false := by
  induction cs with
  | nil => rfl
  | cons c cs ih =>
    rw [List.mem_cons, not_or] at h
    rw [startsLine, List.foldl_cons, ← startsLine, beq_eq_false_iff_ne.mpr (Ne.symm h.1), ih h.2]

/-- A line is left as it is behind its indentation. -/
theorem indented_concat_lineFeed {cs : List Char} (hne : cs ≠ []) (h : '\n' ∉ cs)
    (indentation : List Char) (atStart : Bool) :
    indented indentation atStart (cs ++ ['\n']) =
      (if atStart then indentation else []) ++ cs ++ ['\n'] := by
  obtain ⟨c, cs, rfl⟩ := List.exists_cons_of_ne_nil hne
  rw [List.mem_cons, not_or] at h
  rw [List.cons_append, indented_cons_of_ne (Ne.symm h.1), indented_append, indented_false_eq h.2,
    indented_lineFeed_cons, indented, List.append_assoc, List.cons_append]

/-- Indentation does not matter for what neither changes with it nor crosses line feeds. -/
private theorem apply_indented {α : Type} {f : List Char → α} {indentation : List Char}
    (hn : '\n' ∉ indentation) (hi : ∀ cs, f (indentation ++ cs) = f cs)
    (hl : ∀ front cs ds : List Char, '\n' ∉ front → f cs = f ds →
      f (front ++ '\n' :: cs) = f (front ++ '\n' :: ds)) (cs : List Char) :
    (∀ front : List Char, '\n' ∉ front →
      f (front ++ indented indentation false cs) = f (front ++ cs)) ∧
      f (indented indentation true cs) = f cs := by
  induction cs with
  | nil => exact ⟨fun _ _ ↦ rfl, rfl⟩
  | cons c cs ih =>
    obtain ⟨ihf, iht⟩ := ih
    by_cases hc : c = '\n'
    · subst hc
      exact ⟨fun front h ↦ hl front _ _ h iht, hl [] _ _ List.not_mem_nil iht⟩
    · have hf (front : List Char) (h : '\n' ∉ front) :
          f (front ++ c :: indented indentation false cs) = f (front ++ c :: cs) := by
        have hs (rest : List Char) : front ++ c :: rest = (front ++ [c]) ++ rest := by simp
        rw [hs (indented indentation false cs), hs cs]
        exact ihf (front ++ [c]) (by simpa [h] using Ne.symm hc)
      refine ⟨fun front h ↦ ?_, ?_⟩
      · rw [indented_false_cons_of_ne hc, hf front h]
      · rw [indented_cons_of_ne hc, if_pos rfl, hf indentation hn, hi]

/-- Indentation does not count where it does not count in front of a line. -/
theorem map_splitOn_indented {α : Type} {f : List Char → α} {indentation : List Char}
    (hf : ∀ c ∈ indentation, ∀ l, f (c :: l) = f l) (hn : '\n' ∉ indentation) (atStart : Bool)
    (cs : List Char) :
    ((indented indentation atStart cs).splitOn '\n').map f = (cs.splitOn '\n').map f := by
  have hi (cs : List Char) :
      ((indentation ++ cs).splitOn '\n').map f = (cs.splitOn '\n').map f := by
    induction indentation with
    | nil => rfl
    | cons d indentation ih =>
      rw [List.mem_cons, not_or] at hn
      rw [List.cons_append, map_splitOn_cons (hf d (.head _)) (Ne.symm hn.1),
        ih (fun e he ↦ hf e (.tail _ he)) hn.2]
  have ha := apply_indented (f := fun cs ↦ (cs.splitOn '\n').map f) hn hi
    (fun front cs ds hfront h ↦ by
      simp only [List.splitOn_append_cons_self_of_not_mem hfront, List.map_cons, h]) cs
  cases atStart with
  | false => exact ha.1 [] List.not_mem_nil
  | true => exact ha.2

/-- Blank indentation only adds blanks around the lines. -/
theorem trimmedPieces_indented {indentation : List Char}
    (hb : ∀ c ∈ indentation, isBlank c = true) (hn : '\n' ∉ indentation) (cs : List Char) :
    trimmedPieces (indented indentation false cs) = trimmedPieces cs :=
  map_splitOn_indented (fun c hc ↦ trimChars_cons (hb c hc)) hn false cs

/-- Indentation adds no part that has none of its characters. -/
theorem occursIn_indented {part indentation : List Char} (hp : part ≠ []) (hl : '\n' ∉ part)
    (hn : '\n' ∉ indentation) (hi : ∀ c ∈ indentation, c ∉ part) (atStart : Bool)
    (cs : List Char) : occursIn part (indented indentation atStart cs) = occursIn part cs := by
  have hb (cs : List Char) : occursIn part (indentation ++ cs) = occursIn part cs := by
    clear hn
    induction indentation with
    | nil => rfl
    | cons c indentation ih =>
      rw [List.cons_append, occursIn_cons hp (hi c (.head _)), ih fun d hd ↦ hi d (.tail _ hd)]
  have hf := apply_indented hn hb (fun front cs ds _ h ↦ by
    rw [occursIn_append_cons hl, occursIn_append_cons hl, h]) cs
  cases atStart with
  | false => exact hf.1 [] List.not_mem_nil
  | true => exact hf.2

/-- Whether a writer indents by blanks. -/
def IndentsByBlanks (w : CodeWriter) : Prop :=
  ∀ c ∈ w.unit.toList, c = ' '

theorem indentsByBlanks_of_all {w : CodeWriter} (h : w.unit.toList.all (· == ' ') = true) :
    w.IndentsByBlanks :=
  fun c hc ↦ beq_iff_eq.mp (List.all_eq_true.mp h c hc)

theorem IndentsByBlanks.eq_of_mem {w : CodeWriter} (h : w.IndentsByBlanks) {c : Char}
    (hc : c ∈ w.indentation) : c = ' ' := by
  obtain ⟨chars, hm, hc⟩ := List.mem_flatten.mp hc
  obtain rfl := (List.mem_replicate.mp hm).2
  exact h c hc

/-- The margin of a line is blank. -/
theorem IndentsByBlanks.isBlank_margin {w : CodeWriter} (h : w.IndentsByBlanks) (atStart : Bool) :
    ∀ c ∈ if atStart then w.indentation else [], isBlank c = true := by
  cases atStart with
  | true =>
    intro c hc
    rw [h.eq_of_mem hc]
    decide
  | false => exact List.forall_mem_nil _

/-! ## Writing -/

private theorem put_eq (w : CodeWriter) (c : Char) :
    w.put c =
      { w with
        written := (indented w.indentation w.atLineStart [c]).reverse ++ w.written
        atLineStart := c == '\n' } := by
  rw [put, indented]
  split
  · next h =>
    subst h
    rfl
  · next h =>
    rw [beq_eq_false_iff_ne.mpr h, indented]
    cases hs : w.atLineStart with
    | false => simp
    | true => simp

/-- Written characters are the given ones with indentation in front of their lines. -/
theorem foldl_put_eq (w : CodeWriter) (cs : List Char) :
    cs.foldl put w =
      { w with
        written := (indented w.indentation w.atLineStart cs).reverse ++ w.written
        atLineStart := startsLine w.atLineStart cs } := by
  induction cs generalizing w with
  | nil => rfl
  | cons c cs ih =>
    have hs : c :: cs = [c] ++ cs := rfl
    rw [List.foldl_cons, ih, put_eq]
    conv_rhs => rw [hs, indented_append, List.reverse_append, List.append_assoc]
    rfl

theorem line_eq (w : CodeWriter) (t : String) : w.line t = (t.toList ++ ['\n']).foldl put w := by
  rw [line, write, List.foldl_append]
  rfl

/-- What was written is what is new. -/
theorem since_foldl_put (w : CodeWriter) (cs : List Char) :
    since (cs.foldl put w) w = String.ofList (indented w.indentation w.atLineStart cs) := by
  rw [foldl_put_eq, since]
  simp

/-- A later state of a writer: it indents as before, and what was written is still there. -/
structure Continues (start w : CodeWriter) : Prop where
  /-- One unit of indentation is the same. -/
  unit : w.unit = start.unit
  /-- All that was written is the beginning of what is written. -/
  written : start.written <:+ w.written

private theorem Continues.refl (w : CodeWriter) : Continues w w :=
  ⟨rfl, List.suffix_rfl⟩

private theorem Continues.trans {start w last : CodeWriter} (h : Continues start w)
    (h' : Continues w last) : Continues start last :=
  ⟨h'.unit.trans h.unit, h.written.trans h'.written⟩

theorem Continues.indentsByBlanks {start w : CodeWriter} (h : Continues start w)
    (hs : start.IndentsByBlanks) : w.IndentsByBlanks := by
  rw [IndentsByBlanks, h.unit]
  exact hs

/-- What stands in the text still does later on. -/
theorem Continues.infix_text {w last : CodeWriter} (h : Continues w last) {cs : List Char}
    (hi : cs <:+: w.text.toList) : cs <:+: last.text.toList := by
  rw [CodeWriter.text, String.toList_ofList] at hi ⊢
  exact hi.trans (List.reverse_prefix.mpr h.written).isInfix

/-- What was written since an earlier state stands in the text, also without the blanks around. -/
theorem infix_since (w start : CodeWriter) :
    (trim (w.since start)).toList <:+: w.text.toList := by
  have ht : (w.since start).toList <:+: w.text.toList := by
    rw [since, String.toList_ofList, CodeWriter.text, String.toList_ofList, List.reverse_infix]
    exact (List.take_prefix _ _).isInfix
  refine List.IsInfix.trans ?_ ht
  obtain ⟨front, back, -, -, he⟩ := exists_append_trimChars (w.since start).toList
  rw [toList_trim]
  exact ⟨front, back, he⟩

/-- What is written deeper is written as well. -/
theorem Continues.nested {start w : CodeWriter} (h : Continues start.deeper w) :
    Continues start w.shallower :=
  ⟨h.unit, h.written⟩

private theorem continues_foldl_put (w : CodeWriter) (cs : List Char) :
    Continues w (cs.foldl put w) := by
  rw [foldl_put_eq]
  exact ⟨rfl, List.suffix_append _ _⟩

theorem continues_line (w : CodeWriter) (t : String) : Continues w (w.line t) := by
  rw [line_eq]
  exact continues_foldl_put w _

private theorem continues_blank (w : CodeWriter) : Continues w w.blank := by
  unfold blank
  split
  · exact ⟨rfl, List.suffix_cons _ _⟩
  · exact ⟨rfl, (List.suffix_cons _ _).trans (List.suffix_cons _ _)⟩

end CodeWriter

namespace Code

open CodeWriter

/-- The lines that are written for the lines of a text behind a prefix. -/
def docLines (start content : String) : List String :=
  (Text.lines content).map fun line ↦
    if (Text.trimEnd line).isEmpty then Text.trimEnd start
    else start ++ " " ++ Text.trimEnd line

theorem doc_eq (w : CodeWriter) (start content : String) :
    w.doc start content = runAll w ((docLines start content).map .line) := by
  rw [CodeWriter.doc, docLines]
  induction Text.lines content generalizing w with
  | nil => rfl
  | cons line rest ih =>
    rw [List.foldl_cons, ih, List.map_cons, List.map_cons, runAll, run, apply_ite w.line]

theorem runAll_append (w : CodeWriter) (code rest : List Code) :
    runAll w (code ++ rest) = runAll (runAll w code) rest := by
  induction code generalizing w with
  | nil => rfl
  | cons first code ih => rw [List.cons_append, runAll, runAll, ih]

/-- Lines one after the other are written as one text. -/
theorem runAll_map_line (w : CodeWriter) (ts : List String) :
    runAll w (ts.map .line) = (ts.flatMap fun t ↦ t.toList ++ ['\n']).foldl put w := by
  induction ts generalizing w with
  | nil => rfl
  | cons t ts ih =>
    rw [List.map_cons, runAll, run, ih, line_eq, ← List.foldl_append, List.flatMap_cons]

mutual

/-- Code only adds to what is written. -/
private theorem continues_run (w : CodeWriter) : ∀ code : Code, Continues w (run w code)
  | .text t => continues_foldl_put w t.toList
  | .line t => continues_line w t
  | .blank => continues_blank w
  | .hold => ⟨rfl, List.suffix_rfl⟩
  | .release => by
    rw [run]
    unfold CodeWriter.release
    split
    · exact .refl w
    · exact ⟨rfl, List.suffix_rfl⟩
  | .nested body => (continues_runAll w.deeper body).nested
  | .braced header body =>
    ((continues_line w (header ++ " \x7b")).trans (continues_runAll _ body).nested).trans
      (continues_line _ "\x7d")
  | .suite header body =>
    (continues_line w (header ++ ":")).trans (continues_runAll _ body).nested
  | .doc start content => by
    rw [run, doc_eq, runAll_map_line]
    exact continues_foldl_put w _

theorem continues_runAll (w : CodeWriter) : ∀ code : List Code, Continues w (runAll w code)
  | [] => .refl w
  | code :: rest => (continues_run w code).trans (continues_runAll (run w code) rest)

end

end Code

end RpcForge

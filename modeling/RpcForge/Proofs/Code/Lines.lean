import RpcForge.Proofs.Code.Writer
import RpcForge.Proofs.Text.Pieces

/-!
# The lines of a piece of code

Code that is made of lines and of bodies behind colons is written line by line, each at the level of
what it belongs to. A header opens if the first line behind it that is not blank is indented by more
than the header. Where a header takes several lines, the last of them ends with the colon.
-/

namespace RpcForge

open RpcForge.Text

/-- A line as it is written. -/
structure CodeLine where
  /-- By how many units the line is indented. -/
  level : Nat
  /-- What stands behind the indentation. -/
  text : String
  /-- Whether this is the end of a header, behind which a body stands. -/
  isHeader : Bool := false
deriving DecidableEq, Repr

namespace CodeLine

/-- Whether a line has no character but blanks. -/
def isBlank (l : CodeLine) : Bool :=
  isBlankText l.text

/-- The characters of a line; an empty one is not indented. -/
def chars (unit : String) (l : CodeLine) : List Char :=
  (if l.text.isEmpty then [] else (List.replicate l.level unit.toList).flatten) ++
    l.text.toList ++ ['\n']

end CodeLine

namespace Code

/-! ## Writing line by line -/

/-- The lines of a text that ends its line. -/
def textLines (level : Nat) (t : String) : List CodeLine :=
  (pieces '\n' t).map fun piece ↦ { level := level, text := piece }

/-- Lines of which the last one is the end of a header. -/
def markLast : List CodeLine → List CodeLine
  | [] => []
  | [l] => [{ l with isHeader := true }]
  | l :: l' :: ls => l :: markLast (l' :: ls)

mutual

/-- Whether code is made of lines and of bodies behind colons. -/
def isLinewise : Code → Bool
  | .line _ => true
  | .blank => true
  | .nested body => allLinewise body
  | .suite _ body => allLinewise body
  | .text _ => false
  | .hold => false
  | .release => false
  | .braced _ _ => false
  | .doc _ _ => false

/-- Whether pieces of code are made of lines and of bodies behind colons. -/
def allLinewise : List Code → Bool
  | [] => true
  | code :: rest => isLinewise code && allLinewise rest

end

mutual

/-- The lines of a piece of code at a level. Only lines and bodies behind colons have some. -/
def linesIn (level : Nat) : Code → List CodeLine
  | .line t => textLines level t
  | .blank => [{ level := level, text := "" }]
  | .nested body => linesOf (level + 1) body
  | .suite header body => markLast (textLines level (header ++ ":")) ++ linesOf (level + 1) body
  | .text _ => []
  | .hold => []
  | .release => []
  | .braced _ _ => []
  | .doc _ _ => []

/-- The lines of pieces of code at a level. -/
def linesOf (level : Nat) : List Code → List CodeLine
  | [] => []
  | code :: rest => linesIn level code ++ linesOf level rest

end

@[simp] theorem linesOf_nil (level : Nat) : linesOf level [] = [] := by rw [linesOf]

theorem linesOf_cons (level : Nat) (code : Code) (rest : List Code) :
    linesOf level (code :: rest) = linesIn level code ++ linesOf level rest := by rw [linesOf]

theorem linesOf_append (level : Nat) (code rest : List Code) :
    linesOf level (code ++ rest) = linesOf level code ++ linesOf level rest := by
  induction code with
  | nil => simp
  | cons first code ih => rw [List.cons_append, linesOf_cons, ih, linesOf_cons, List.append_assoc]

/-- Marking a line does not change what is written. -/
private theorem flatMap_chars_markLast (unit : String) (ls : List CodeLine) :
    (markLast ls).flatMap (CodeLine.chars unit) = ls.flatMap (CodeLine.chars unit) := by
  match ls with
  | [] => rfl
  | [l] => rfl
  | l :: l' :: ls =>
    rw [markLast, List.flatMap_cons, flatMap_chars_markLast unit (l' :: ls), ← List.flatMap_cons]

open CodeWriter

private theorem startsLine_concat_lineFeed (atStart : Bool) (cs : List Char) :
    startsLine atStart (cs ++ ['\n']) = true := by
  rw [startsLine, List.foldl_append]
  rfl

/-- Ended stretches without line feeds are indented one by one. -/
private theorem indented_flatMap_lineFeed (indentation : List Char) (ps : List (List Char))
    (h : ∀ p ∈ ps, '\n' ∉ p) :
    indented indentation true (ps.flatMap fun p ↦ p ++ ['\n']) =
      ps.flatMap fun p ↦ (if p.isEmpty then [] else indentation) ++ p ++ ['\n'] := by
  induction ps with
  | nil => rfl
  | cons p ps ih =>
    obtain ⟨hp, hps⟩ := List.forall_mem_cons.mp h
    rw [List.flatMap_cons, List.flatMap_cons, indented_append, startsLine_concat_lineFeed, ih hps]
    congr 1
    cases p with
    | nil => rfl
    | cons c p => exact indented_concat_lineFeed (List.cons_ne_nil c p) hp indentation true

/-- The lines of a text, as they are written at the start of a line. -/
private theorem flatMap_chars_textLines (unit : String) (level : Nat) (t : String) :
    (textLines level t).flatMap (CodeLine.chars unit) =
      indented (List.replicate level unit.toList).flatten true (t.toList ++ ['\n']) := by
  have hs : t.toList ++ ['\n'] = (t.toList.splitOn '\n').flatMap fun p ↦ p ++ ['\n'] := by
    obtain ⟨p, ps, he⟩ := List.exists_cons_of_ne_nil (List.splitOn_ne_nil '\n' t.toList)
    have hj : ['\n'].intercalate (t.toList.splitOn '\n') = t.toList := List.intercalate_splitOn '\n'
    rw [he] at hj ⊢
    rw [← hj, intercalate_append_lineFeed, List.append_nil, List.flatMap_cons, List.append_assoc]
    rfl
  rw [hs, indented_flatMap_lineFeed _ _ fun p hp ↦ not_mem_of_mem_splitOn hp, textLines, pieces_eq,
    List.map_map, List.flatMap_map]
  simp [CodeLine.chars]

end Code

namespace CodeWriter

/-- A writer that has written more characters and stands at the start of a line again. -/
def wrote (w : CodeWriter) (cs : List Char) : CodeWriter :=
  { w with written := cs.reverse ++ w.written, atLineStart := true }

private theorem wrote_wrote (w : CodeWriter) (cs ds : List Char) :
    (w.wrote cs).wrote ds = w.wrote (cs ++ ds) := by
  simp [wrote]

end CodeWriter

namespace Code

open CodeWriter

variable {w : CodeWriter}

private theorem line_eq_wrote (h : w.atLineStart = true) (t : String) :
    w.line t = w.wrote ((textLines w.level t).flatMap (CodeLine.chars w.unit)) := by
  rw [line_eq, foldl_put_eq, h, startsLine_concat_lineFeed, flatMap_chars_textLines]
  rfl

private theorem blank_eq_wrote (h : w.atLineStart = true) : w.blank = w.wrote ['\n'] := by
  rw [CodeWriter.blank, h]
  rfl

mutual

private theorem run_eq_wrote (w : CodeWriter) (h : w.atLineStart = true) :
    ∀ code : Code, code.isLinewise = true →
      run w code = w.wrote ((linesIn w.level code).flatMap (CodeLine.chars w.unit))
  | .line t, _ => line_eq_wrote h t
  | .blank, _ => blank_eq_wrote h
  | .nested body, hl => by
    rw [run, runAll_eq_wrote w.deeper h body hl]
    rfl
  | .suite header body, hl => by
    rw [run, line_eq_wrote h, runAll_eq_wrote _ rfl body hl, linesIn, List.flatMap_append,
      flatMap_chars_markLast, ← wrote_wrote]
    rfl
  | .text _, hl => nomatch hl
  | .hold, hl => nomatch hl
  | .release, hl => nomatch hl
  | .braced _ _, hl => nomatch hl
  | .doc _ _, hl => nomatch hl

/-- Code is written line by line. -/
private theorem runAll_eq_wrote (w : CodeWriter) (h : w.atLineStart = true) :
    ∀ code : List Code, allLinewise code = true →
      runAll w code = w.wrote ((linesOf w.level code).flatMap (CodeLine.chars w.unit))
  | [], _ => by
    rw [runAll, linesOf, wrote, ← h]
    rfl
  | code :: rest, hl => by
    rw [allLinewise, Bool.and_eq_true] at hl
    rw [runAll, run_eq_wrote w h code hl.1, runAll_eq_wrote _ rfl rest hl.2, wrote_wrote,
      linesOf, List.flatMap_append]
    rfl

end

/-- The text of code is that of its lines. -/
theorem toList_render (unit : String) (code : List Code) (h : allLinewise code = true) :
    (render unit code).toList = (linesOf 0 code).flatMap (CodeLine.chars unit) := by
  rw [render, runAll_eq_wrote _ rfl code h, CodeWriter.text]
  simp [wrote]

/-! ## Code that is made of lines -/

@[simp] theorem allLinewise_nil : allLinewise [] = true := rfl

@[simp] theorem allLinewise_cons (code : Code) (rest : List Code) :
    allLinewise (code :: rest) = (code.isLinewise && allLinewise rest) := by
  rw [allLinewise]

@[simp] theorem isLinewise_line (t : String) : isLinewise (.line t) = true := rfl

@[simp] theorem isLinewise_blank : isLinewise .blank = true := rfl

@[simp] theorem isLinewise_nested (body : List Code) :
    isLinewise (.nested body) = allLinewise body := by
  rw [isLinewise]

@[simp] theorem isLinewise_suite (header : String) (body : List Code) :
    isLinewise (.suite header body) = allLinewise body := by
  rw [isLinewise]

@[simp] theorem allLinewise_append (code rest : List Code) :
    allLinewise (code ++ rest) = (allLinewise code && allLinewise rest) := by
  induction code with
  | nil => rfl
  | cons first code ih => rw [List.cons_append, allLinewise, ih, allLinewise, Bool.and_assoc]

@[simp] theorem allLinewise_flatMap {α : Type} (f : α → List Code) (as : List α) :
    allLinewise (as.flatMap f) = as.all fun a ↦ allLinewise (f a) := by
  induction as with
  | nil => rfl
  | cons a as ih => rw [List.flatMap_cons, allLinewise_append, ih, List.all_cons]

@[simp] theorem allLinewise_map_line {α : Type} (f : α → String) (as : List α) :
    allLinewise (as.map fun a ↦ .line (f a)) = true := by
  induction as with
  | nil => rfl
  | cons a as ih => rw [List.map_cons, allLinewise, isLinewise, ih, Bool.and_self]

/-! ## Headers with a body -/

/-- Whether the first line that is not blank is indented by more than a level. -/
def FirstDeeper (level : Nat) (ls : List CodeLine) : Prop :=
  ∃ l, ls.find? (!·.isBlank) = some l ∧ level < l.level

/-- Behind each header the first line that is not blank is indented by more than the header. -/
def HeadersOpen (ls : List CodeLine) : Prop :=
  ∀ before header after, ls = before ++ header :: after → header.isHeader = true →
    FirstDeeper header.level after

mutual

/-- Whether something is written for a piece of code besides blanks. -/
def hasText : Code → Bool
  | .line t => !isBlankText t
  | .blank => false
  | .nested body => anyHasText body
  | .suite _ _ => true
  | .text _ => false
  | .hold => false
  | .release => false
  | .braced _ _ => false
  | .doc _ _ => false

/-- Whether something is written for one of several pieces besides blanks. -/
def anyHasText : List Code → Bool
  | [] => false
  | code :: rest => hasText code || anyHasText rest

end

mutual

/-- Whether something is written for each body behind a colon. -/
def isFilled : Code → Bool
  | .suite _ body => anyHasText body && allFilled body
  | .nested body => allFilled body
  | .line _ => true
  | .blank => true
  | .text _ => true
  | .hold => true
  | .release => true
  | .braced _ _ => true
  | .doc _ _ => true

/-- Whether something is written for each body behind a colon in several pieces. -/
def allFilled : List Code → Bool
  | [] => true
  | code :: rest => isFilled code && allFilled rest

end

theorem headersOpen_nil : HeadersOpen [] := by
  intro before header after h
  exact absurd h (by simp)

private theorem headersOpen_cons (l : CodeLine) (ls : List CodeLine) :
    HeadersOpen (l :: ls) ↔ (l.isHeader = true → FirstDeeper l.level ls) ∧ HeadersOpen ls := by
  constructor
  · intro h
    refine ⟨h [] l ls rfl, fun before header after hs ↦ ?_⟩
    exact h (l :: before) header after (by rw [hs, List.cons_append])
  · rintro ⟨hl, hls⟩ before header after hs
    cases before with
    | nil =>
      obtain ⟨rfl, rfl⟩ := List.cons.inj hs
      exact hl
    | cons _ before => exact hls before header after (List.cons.inj hs).2

/-- Lines that are no headers do not matter. -/
theorem headersOpen_append {ls : List CodeLine} (h : ∀ l ∈ ls, l.isHeader = false)
    (rest : List CodeLine) : HeadersOpen (ls ++ rest) ↔ HeadersOpen rest := by
  induction ls with
  | nil => rfl
  | cons l ls ih =>
    obtain ⟨hl, hls⟩ := List.forall_mem_cons.mp h
    rw [List.cons_append, headersOpen_cons, ih hls, hl]
    exact and_iff_right nofun

private theorem headersOpen_markLast {level : Nat} {ls : List CodeLine} (hne : ls ≠ [])
    (h : ∀ l ∈ ls, l.isHeader = false ∧ l.level = level) (rest : List CodeLine) :
    HeadersOpen (markLast ls ++ rest) ↔ FirstDeeper level rest ∧ HeadersOpen rest := by
  match ls with
  | [l] =>
    obtain ⟨-, rfl⟩ := h l (.head _)
    rw [markLast, List.singleton_append, headersOpen_cons]
    exact and_congr_left' ⟨fun hd ↦ hd rfl, fun hd _ ↦ hd⟩
  | l :: l' :: ls =>
    obtain ⟨hl, hls⟩ := List.forall_mem_cons.mp h
    rw [markLast, List.cons_append, headersOpen_cons,
      headersOpen_markLast (List.cons_ne_nil _ _) hls, hl.1]
    exact and_iff_right nofun

private theorem textLines_ne_nil (level : Nat) (t : String) : textLines level t ≠ [] := by
  simp [textLines, pieces_eq, List.splitOn_ne_nil]

theorem of_mem_textLines {level : Nat} {t : String} {l : CodeLine} (h : l ∈ textLines level t) :
    l.isHeader = false ∧ l.level = level := by
  obtain ⟨piece, -, rfl⟩ := List.mem_map.mp h
  exact ⟨rfl, rfl⟩

private theorem level_of_mem_markLast {level : Nat} {ls : List CodeLine}
    (h : ∀ l ∈ ls, l.level = level) :
    ∀ l ∈ markLast ls, l.level = level := by
  match ls with
  | [] => exact h
  | [l] => exact List.forall_mem_singleton.mpr (h l (.head _))
  | l :: l' :: ls =>
    obtain ⟨hl, hls⟩ := List.forall_mem_cons.mp h
    exact List.forall_mem_cons.mpr ⟨hl, level_of_mem_markLast hls⟩

mutual

private theorem level_le_of_mem_linesIn {level : Nat} {l : CodeLine} :
    ∀ {code : Code}, l ∈ linesIn level code → level ≤ l.level
  | .line t, h => (of_mem_textLines h).2.ge
  | .blank, h => by
    obtain rfl := List.mem_singleton.mp h
    exact Nat.le_refl level
  | .nested body, h => Nat.le_of_succ_le (level_le_of_mem_linesOf h)
  | .suite header body, h => by
    rw [linesIn] at h
    rcases List.mem_append.mp h with h | h
    · exact (level_of_mem_markLast (fun l hl ↦ (of_mem_textLines hl).2) l h).ge
    · exact Nat.le_of_succ_le (level_le_of_mem_linesOf h)

private theorem level_le_of_mem_linesOf {level : Nat} {l : CodeLine} :
    ∀ {code : List Code}, l ∈ linesOf level code → level ≤ l.level
  | code :: rest, h => by
    rw [linesOf] at h
    rcases List.mem_append.mp h with h | h
    · exact level_le_of_mem_linesIn h
    · exact level_le_of_mem_linesOf h

end

/-- A text is blank if all its lines are. -/
private theorem isBlank_textLines_iff (level : Nat) (t : String) :
    (∀ l ∈ textLines level t, l.isBlank = true) ↔ isBlankText t = true := by
  have hj : ['\n'].intercalate (t.toList.splitOn '\n') = t.toList := List.intercalate_splitOn '\n'
  have hi (ps : List (List Char)) :
      (['\n'].intercalate ps).all isBlank = ps.all fun p ↦ p.all isBlank := by
    induction ps with
    | nil => rfl
    | cons p ps ih =>
      cases ps with
      | nil => simp
      | cons p' ps =>
        have hl : ['\n'].all isBlank = true := by decide
        rw [List.intercalate_cons_cons, List.all_append, List.all_append, ih, hl, Bool.and_true]
        simp
  rw [isBlankText, ← hj, hi, List.all_eq_true, textLines, pieces_eq, List.map_map,
    List.forall_mem_map]
  simp [CodeLine.isBlank, isBlankText]

/-- A header is not blank, because it ends with a colon. -/
private theorem isBlankText_header (header : String) : isBlankText (header ++ ":") = false := by
  rw [isBlankText_append, Bool.and_eq_false_iff]
  exact .inr (by decide)

private theorem isBlank_markLast_iff (ls : List CodeLine) :
    (∀ l ∈ markLast ls, l.isBlank = true) ↔ ∀ l ∈ ls, l.isBlank = true := by
  match ls with
  | [] => rfl
  | [l] => simp [markLast, CodeLine.isBlank]
  | l :: l' :: ls =>
    rw [markLast, List.forall_mem_cons, isBlank_markLast_iff (l' :: ls)]
    simp

mutual

private theorem isBlank_linesIn_iff (level : Nat) : ∀ code : Code,
    (∀ l ∈ linesIn level code, l.isBlank = true) ↔ hasText code = false
  | .line t => by
    rw [linesIn, isBlank_textLines_iff, hasText, Bool.not_eq_false']
  | .blank => by simp [linesIn, hasText, CodeLine.isBlank, isBlankText]
  | .nested body => by
    rw [linesIn, hasText]
    exact isBlank_linesOf_iff (level + 1) body
  | .suite header body => by
    rw [linesIn, hasText, List.forall_mem_append, isBlank_markLast_iff, isBlank_textLines_iff,
      isBlankText_header]
    simp
  | .text _ => by simp [linesIn, hasText]
  | .hold => by simp [linesIn, hasText]
  | .release => by simp [linesIn, hasText]
  | .braced _ _ => by simp [linesIn, hasText]
  | .doc _ _ => by simp [linesIn, hasText]

/-- All lines of code are blank if nothing is written but blanks. -/
private theorem isBlank_linesOf_iff (level : Nat) : ∀ code : List Code,
    (∀ l ∈ linesOf level code, l.isBlank = true) ↔ anyHasText code = false
  | [] => by simp [anyHasText]
  | code :: rest => by
    rw [linesOf, List.forall_mem_append, isBlank_linesIn_iff, isBlank_linesOf_iff, anyHasText,
      Bool.or_eq_false_iff]

end

/-- Where something is written in a body, the first line that is not blank is one of the body. -/
private theorem firstDeeper_of_anyHasText {level : Nat} {body : List Code}
    (h : anyHasText body = true) (rest : List CodeLine) :
    FirstDeeper level (linesOf (level + 1) body ++ rest) := by
  cases hf : (linesOf (level + 1) body).find? (!·.isBlank) with
  | none =>
    have hb := (isBlank_linesOf_iff (level + 1) body).mp (by simpa using hf)
    exact absurd h (by simp [hb])
  | some l =>
    refine ⟨l, by rw [List.find?_append, hf, Option.some_or], ?_⟩
    exact level_le_of_mem_linesOf (List.mem_of_find?_eq_some hf)

/-- Where nothing is written in a body, the first line that is not blank comes behind it. -/
private theorem firstDeeper_of_anyHasText_eq_false {level n : Nat} {body : List Code}
    (h : anyHasText body = false) (rest : List CodeLine) :
    FirstDeeper level (linesOf n body ++ rest) ↔ FirstDeeper level rest := by
  have hf : (linesOf n body).find? (!·.isBlank) = none := by
    simpa using (isBlank_linesOf_iff n body).mpr h
  rw [FirstDeeper, List.find?_append, hf, Option.none_or]
  rfl

private theorem headersOpen_suite (level : Nat) (header : String) (body : List Code)
    (rest : List CodeLine) : HeadersOpen (linesIn level (.suite header body) ++ rest) ↔
      FirstDeeper level (linesOf (level + 1) body ++ rest) ∧
        HeadersOpen (linesOf (level + 1) body ++ rest) := by
  rw [linesIn, List.append_assoc]
  exact headersOpen_markLast (textLines_ne_nil level _) (fun _ ↦ of_mem_textLines) _

mutual

private theorem headersOpen_linesIn (level : Nat) : ∀ code : Code, code.isFilled = true →
    ∀ rest, HeadersOpen rest → HeadersOpen (linesIn level code ++ rest)
  | .line t, _, rest, h => (headersOpen_append (fun _ hl ↦ (of_mem_textLines hl).1) rest).mpr h
  | .blank, _, rest, h => (headersOpen_append (List.forall_mem_singleton.mpr rfl) rest).mpr h
  | .nested body, hf, rest, h => headersOpen_linesOf (level + 1) body hf rest h
  | .suite header body, hf, rest, h => by
    rw [isFilled, Bool.and_eq_true] at hf
    exact (headersOpen_suite level header body rest).mpr
      ⟨firstDeeper_of_anyHasText hf.1 rest, headersOpen_linesOf (level + 1) body hf.2 rest h⟩
  | .text _, _, _, h => h
  | .hold, _, _, h => h
  | .release, _, _, h => h
  | .braced _ _, _, _, h => h
  | .doc _ _, _, _, h => h

/-- Headers whose bodies are not blank open. -/
theorem headersOpen_linesOf (level : Nat) : ∀ code : List Code, allFilled code = true →
    ∀ rest, HeadersOpen rest → HeadersOpen (linesOf level code ++ rest)
  | [], _, _, h => h
  | code :: others, hf, rest, h => by
    rw [allFilled, Bool.and_eq_true] at hf
    rw [linesOf, List.append_assoc]
    exact headersOpen_linesIn level code hf.1 _ (headersOpen_linesOf level others hf.2 rest h)

end

/-- Whether a piece of code is a line, which may be empty. -/
def isPlain : Code → Bool
  | .line _ => true
  | .blank => true
  | _ => false

/-- Whether a piece of code is a line or a header with lines behind it. -/
def isFlat : Code → Bool
  | .suite _ body => body.all isPlain
  | code => code.isPlain

theorem isHeader_linesOf_of_isPlain {level : Nat} {code : List Code}
    (h : code.all isPlain = true) : ∀ l ∈ linesOf level code, l.isHeader = false := by
  induction code with
  | nil => simp
  | cons first code ih =>
    rw [List.all_cons, Bool.and_eq_true] at h
    rw [linesOf, List.forall_mem_append]
    refine ⟨?_, ih h.2⟩
    cases first with
    | line t => exact fun l hl ↦ (of_mem_textLines hl).1
    | blank => exact List.forall_mem_singleton.mpr rfl
    | _ => exact nomatch h.1

theorem allFilled_of_isPlain {code : List Code} (h : code.all isPlain = true) :
    allFilled code = true := by
  induction code with
  | nil => rfl
  | cons first code ih =>
    rw [List.all_cons, Bool.and_eq_true] at h
    rw [allFilled, ih h.2, Bool.and_true]
    cases first with
    | line t => rfl
    | blank => rfl
    | _ => exact nomatch h.1

/-- Lines at a level that are not all blank do not begin deeper. -/
private theorem not_firstDeeper_append {level : Nat} {ls : List CodeLine}
    (hl : ∀ l ∈ ls, l.level = level) (hb : ¬∀ l ∈ ls, l.isBlank = true) (rest : List CodeLine) :
    ¬FirstDeeper level (ls ++ rest) := by
  rintro ⟨l, hf, hd⟩
  cases hs : ls.find? (!·.isBlank) with
  | none => exact hb (by simpa using hs)
  | some first =>
    rw [List.find?_append, hs, Option.some_or] at hf
    obtain rfl := Option.some.inj hf
    exact absurd (hl first (List.mem_of_find?_eq_some hs)) hd.ne'

/-- The first line of flat code that is not blank is indented like the code. -/
private theorem not_firstDeeper_of_isFlat {level : Nat} {code : List Code}
    (h : code.all isFlat = true) :
    ¬FirstDeeper level (linesOf level code) := by
  induction code with
  | nil =>
    rintro ⟨l, hf, -⟩
    simp at hf
  | cons first code ih =>
    rw [List.all_cons, Bool.and_eq_true] at h
    rw [linesOf]
    cases first with
    | line t =>
      by_cases hb : ∀ l ∈ textLines level t, l.isBlank = true
      · have hf : (textLines level t).find? (!·.isBlank) = none := by simpa using hb
        rw [linesIn, FirstDeeper, List.find?_append, hf, Option.none_or]
        exact ih h.2
      · exact not_firstDeeper_append (fun l hl ↦ (of_mem_textLines hl).2) hb _
    | blank => exact ih h.2
    | suite header body =>
      rw [linesIn, List.append_assoc]
      refine not_firstDeeper_append (level_of_mem_markLast fun l hl ↦ (of_mem_textLines hl).2) ?_ _
      rw [isBlank_markLast_iff, isBlank_textLines_iff, isBlankText_header]
      exact Bool.false_ne_true
    | _ => exact nomatch h.1

/-- In flat code the headers open exactly if no body is blank. -/
theorem headersOpen_iff_allFilled (level : Nat) {code : List Code} (h : code.all isFlat = true) :
    HeadersOpen (linesOf level code) ↔ allFilled code = true := by
  refine ⟨fun ho ↦ ?_, fun hf ↦ ?_⟩
  · induction code with
    | nil => rfl
    | cons first code ih =>
      rw [List.all_cons, Bool.and_eq_true] at h
      rw [linesOf] at ho
      rw [allFilled, Bool.and_eq_true]
      cases first with
      | line t =>
        have hl : ∀ l ∈ textLines level t, l.isHeader = false := fun _ hl ↦ (of_mem_textLines hl).1
        exact ⟨rfl, ih h.2 ((headersOpen_append hl _).mp ho)⟩
      | blank =>
        have hl : ∀ l ∈ linesIn level .blank, l.isHeader = false :=
          List.forall_mem_singleton.mpr rfl
        exact ⟨rfl, ih h.2 ((headersOpen_append hl _).mp ho)⟩
      | suite header body =>
        obtain ⟨hd, ho⟩ := (headersOpen_suite level header body _).mp ho
        rw [headersOpen_append (isHeader_linesOf_of_isPlain h.1)] at ho
        rw [isFilled, allFilled_of_isPlain h.1, Bool.and_true]
        refine ⟨?_, ih h.2 ho⟩
        by_contra hn
        rw [Bool.not_eq_true] at hn
        rw [firstDeeper_of_anyHasText_eq_false hn] at hd
        exact not_firstDeeper_of_isFlat h.2 hd
      | _ => exact nomatch h.1
  · have ho := headersOpen_linesOf level code hf [] headersOpen_nil
    rwa [List.append_nil] at ho

/-! ## Code in which something is written for each body -/

@[simp] theorem anyHasText_nil : anyHasText [] = false := rfl

@[simp] theorem anyHasText_cons (code : Code) (rest : List Code) :
    anyHasText (code :: rest) = (code.hasText || anyHasText rest) := by
  rw [anyHasText]

@[simp] theorem anyHasText_append (code rest : List Code) :
    anyHasText (code ++ rest) = (anyHasText code || anyHasText rest) := by
  induction code with
  | nil => rfl
  | cons first code ih => rw [List.cons_append, anyHasText, ih, anyHasText, Bool.or_assoc]

@[simp] theorem anyHasText_map_line {α : Type} (f : α → String) (as : List α) :
    anyHasText (as.map fun a ↦ .line (f a)) = as.any fun a ↦ !isBlankText (f a) := by
  induction as with
  | nil => rfl
  | cons a as ih => rw [List.map_cons, anyHasText, ih, List.any_cons, hasText]

@[simp] theorem allFilled_nil : allFilled [] = true := rfl

@[simp] theorem allFilled_cons (code : Code) (rest : List Code) :
    allFilled (code :: rest) = (code.isFilled && allFilled rest) := by
  rw [allFilled]

@[simp] theorem allFilled_append (code rest : List Code) :
    allFilled (code ++ rest) = (allFilled code && allFilled rest) := by
  induction code with
  | nil => rfl
  | cons first code ih => rw [List.cons_append, allFilled, ih, allFilled, Bool.and_assoc]

@[simp] theorem allFilled_flatMap {α : Type} (f : α → List Code) (as : List α) :
    allFilled (as.flatMap f) = as.all fun a ↦ allFilled (f a) := by
  induction as with
  | nil => rfl
  | cons a as ih => rw [List.flatMap_cons, allFilled_append, ih, List.all_cons]

@[simp] theorem allFilled_map_line {α : Type} (f : α → String) (as : List α) :
    allFilled (as.map fun a ↦ .line (f a)) = true :=
  allFilled_of_isPlain (by simp [isPlain])

end Code

end RpcForge

import Mathlib.Data.List.Basic
import RpcForge.Proofs.Code.Writer
import RpcForge.Proofs.Text.Pieces

/-!
# Exact indentation

Code is written at the level in force: one for each block around it, and one for each level that is
held. A log keeps what is written together with these levels and knows of no indentation. A writer
writes the lines of the log, each behind the units of the level at its first character. It does not
matter how a text is cut up for writing, and a block leaves the level as it was if its body gives
back what it holds.
-/

namespace RpcForge

open CodeWriter (indented startsLine)

/-- What code writes, without indentation. -/
structure CodeLog where
  /-- The characters in order, each with the level in force when it was written. -/
  entries : List (Nat × Char) := []
  /-- How many levels are held. -/
  held : Nat := 0

namespace CodeLog

open Code (docLines)

/-- Whether nothing was written on the current line yet. -/
def atLineStart (log : CodeLog) : Bool :=
  startsLine true (log.entries.map Prod.snd)

/-- The log after characters that are written inside of blocks. -/
def record (depth : Nat) (log : CodeLog) (cs : List Char) : CodeLog :=
  { log with entries := log.entries ++ cs.map (depth + log.held, ·) }

/-- The log after a text that ends its line. -/
def recordLine (depth : Nat) (log : CodeLog) (t : String) : CodeLog :=
  log.record depth (t.toList ++ ['\n'])

/-- The log after an empty line, and after the end of the current line if something stands on it. -/
def recordBlank (depth : Nat) (log : CodeLog) : CodeLog :=
  log.record depth (if log.atLineStart then ['\n'] else ['\n', '\n'])

mutual

/-- The log after a piece of code that stands inside of blocks. -/
def run (depth : Nat) (log : CodeLog) : Code → CodeLog
  | .text t => log.record depth t.toList
  | .line t => log.recordLine depth t
  | .blank => log.recordBlank depth
  | .hold => { log with held := log.held + 1 }
  | .release => { log with held := log.held - 1 }
  | .nested body => runAll (depth + 1) log body
  | .braced header body =>
    (runAll (depth + 1) (log.recordLine depth (header ++ " \x7b")) body).recordLine depth "\x7d"
  | .suite header body => runAll (depth + 1) (log.recordLine depth (header ++ ":")) body
  | .doc start content => (docLines start content).foldl (recordLine depth) log

/-- The log after pieces of code one after the other. -/
def runAll (depth : Nat) (log : CodeLog) : List Code → CodeLog
  | [] => log
  | code :: rest => runAll depth (run depth log code) rest

end

/-- The log of code that stands in no block. -/
def ofCode (code : List Code) : CodeLog :=
  runAll 0 {} code

/-- The lines of a log. -/
def lines (log : CodeLog) : List (List (Nat × Char)) :=
  log.entries.splitOnP (·.2 == '\n')

/-- A line of a log as it has to stand in the text: an empty one is empty, and any other one stands
behind as many units as the level at its first character says. -/
def lineChars (unit : String) : List (Nat × Char) → List Char
  | [] => []
  | (level, c) :: rest =>
    (List.replicate level unit.toList).flatten ++ ((level, c) :: rest).map Prod.snd

/-! ## Laying out a log -/

/-- The characters of a log with the indentation of each line. -/
def laidOut (unit : String) : Bool → List (Nat × Char) → List Char
  | _, [] => []
  | atStart, (level, c) :: rest =>
    if c = '\n' then '\n' :: laidOut unit true rest
    else (if atStart then (List.replicate level unit.toList).flatten else []) ++
      c :: laidOut unit false rest

private theorem laidOut_append (unit : String) (atStart : Bool) (front back : List (Nat × Char)) :
    laidOut unit atStart (front ++ back) =
      laidOut unit atStart front ++
        laidOut unit (startsLine atStart (front.map Prod.snd)) back := by
  induction front generalizing atStart with
  | nil => rfl
  | cons entry front ih =>
    obtain ⟨level, c⟩ := entry
    rw [List.cons_append, laidOut, laidOut, List.map_cons, startsLine, List.foldl_cons,
      ← startsLine]
    by_cases hc : c = '\n'
    · rw [if_pos hc, if_pos hc, ih, hc]
      rfl
    · rw [if_neg hc, if_neg hc, ih, beq_eq_false_iff_ne.mpr hc, List.append_assoc,
        List.cons_append]

/-- Characters of one level are laid out with the indentation of that level. -/
private theorem laidOut_map (unit : String) (atStart : Bool) (level : Nat) (cs : List Char) :
    laidOut unit atStart (cs.map (level, ·)) =
      indented (List.replicate level unit.toList).flatten atStart cs := by
  induction cs generalizing atStart with
  | nil => rfl
  | cons c cs ih =>
    rw [List.map_cons, laidOut, indented, ih, ih]

/-- A log is laid out line by line. What stands on the current line already decides on the first
line alone. -/
private theorem laidOut_eq_intercalate (unit : String) (atStart : Bool)
    {entries : List (Nat × Char)} {first : List (Nat × Char)} {others : List (List (Nat × Char))}
    (h : entries.splitOnP (·.2 == '\n') = first :: others) :
    laidOut unit atStart entries = ['\n'].intercalate
      ((if atStart then lineChars unit first else first.map Prod.snd) ::
        others.map (lineChars unit)) := by
  induction entries generalizing atStart first others with
  | nil =>
    rw [List.splitOnP_nil] at h
    obtain ⟨rfl, rfl⟩ := List.cons.inj h
    cases atStart <;> rfl
  | cons entry entries ih =>
    obtain ⟨level, c⟩ := entry
    obtain ⟨next, rest, hs⟩ :=
      List.exists_cons_of_ne_nil (List.splitOnP_ne_nil (·.2 == '\n') entries)
    rw [List.splitOnP_cons_eq_if_modifyHead, hs] at h
    rw [laidOut]
    -- A line feed starts a line for what follows; any other character goes on with the first line.
    by_cases hc : c = '\n'
    · subst hc
      rw [if_pos (beq_self_eq_true _)] at h
      obtain ⟨rfl, rfl⟩ := List.cons.inj h
      rw [if_pos rfl, ih true hs, List.map_cons, List.intercalate_cons_cons]
      cases atStart <;> rfl
    · rw [if_neg (by simpa using hc)] at h
      obtain ⟨rfl, rfl⟩ := List.cons.inj h
      rw [if_neg hc, ih false hs]
      cases atStart <;> cases rest <;> simp [lineChars, List.intercalate_cons_cons]

/-- No line of a log has a line feed in it. -/
private theorem lineFeed_not_mem_lineChars {unit : String} (hu : '\n' ∉ unit.toList) {log : CodeLog}
    {line : List (Nat × Char)} (h : line ∈ log.lines) : '\n' ∉ lineChars unit line := by
  have hn : '\n' ∉ line.map Prod.snd := by
    intro hm
    obtain ⟨entry, he, hc⟩ := List.mem_map.mp hm
    simpa [hc] using Text.forall_mem_of_mem_splitOnP h entry he
  cases line with
  | nil => exact hn
  | cons entry line =>
    rw [lineChars, List.mem_append, not_or]
    refine ⟨fun hm ↦ ?_, hn⟩
    obtain ⟨copy, hr, hc⟩ := List.mem_flatten.mp hm
    obtain rfl := (List.mem_replicate.mp hr).2
    exact hu hc

/-! ## Writers and logs -/

/-- A writer that stands inside of blocks has written what is in a log, laid out. -/
structure Describes (depth : Nat) (log : CodeLog) (w : CodeWriter) : Prop where
  /-- As many levels are held. -/
  held : w.held = log.held
  /-- Each block and each level that is held counts for one level. -/
  level : w.level = depth + log.held
  /-- The writer knows whether a line has begun. -/
  atLineStart : w.atLineStart = log.atLineStart
  /-- The text is that of the log with the indentation of each line. -/
  written : w.written.reverse = laidOut w.unit true log.entries

variable {depth : Nat} {log : CodeLog} {w : CodeWriter}

private theorem describes_empty (unit : String) : Describes 0 {} { unit := unit } :=
  ⟨rfl, rfl, rfl, rfl⟩

theorem Describes.record (h : Describes depth log w) (cs : List Char) :
    Describes depth (log.record depth cs) (cs.foldl CodeWriter.put w) := by
  have hi : w.indentation = (List.replicate (depth + log.held) w.unit.toList).flatten := by
    rw [CodeWriter.indentation, h.level]
  have hs : (cs.map fun c ↦ (depth + log.held, c)).map Prod.snd = cs := by
    rw [List.map_map]
    exact List.map_id cs
  rw [CodeWriter.foldl_put_eq]
  constructor
  case held => exact h.held
  case level => exact h.level
  case atLineStart =>
    rw [CodeLog.atLineStart, CodeLog.record, List.map_append, startsLine, startsLine,
      List.foldl_append, hs, h.atLineStart]
    rfl
  case written =>
    rw [CodeLog.record, laidOut_append, laidOut_map, ← CodeLog.atLineStart, ← h.atLineStart,
      List.reverse_append, List.reverse_reverse, h.written, hi]

theorem Describes.line (h : Describes depth log w) (t : String) :
    Describes depth (log.recordLine depth t) (w.line t) := by
  rw [CodeWriter.line_eq]
  exact h.record _

theorem Describes.blank (h : Describes depth log w) :
    Describes depth (log.recordBlank depth) w.blank := by
  have hb : w.blank =
      (if log.atLineStart then ['\n'] else ['\n', '\n']).foldl CodeWriter.put w := by
    rw [CodeWriter.blank, h.atLineStart]
    split <;> rfl
  rw [hb]
  exact h.record _

theorem Describes.hold (h : Describes depth log w) :
    Describes depth { log with held := log.held + 1 } w.hold where
  held := congrArg (· + 1) h.held
  level := congrArg (· + 1) h.level
  atLineStart := h.atLineStart
  written := h.written

/-- Where nothing is held, nothing can be given back. -/
theorem Describes.release (h : Describes depth log w) :
    Describes depth { log with held := log.held - 1 } w.release := by
  obtain ⟨held, level, atLineStart, written⟩ := h
  rw [CodeWriter.release]
  split
  · next hz =>
    refine ⟨?_, ?_, atLineStart, written⟩
    · rw [← held, hz]
    · rw [level, ← held, hz]
  · next k hk =>
    have hs : log.held = k + 1 := held.symm.trans hk
    refine ⟨?_, ?_, atLineStart, written⟩
    · simp [hs]
    · simp [CodeWriter.shallower, level, hs]

private theorem Describes.deeper (h : Describes depth log w) :
    Describes (depth + 1) log w.deeper where
  held := h.held
  level := by
    have hl := h.level
    simp only [CodeWriter.deeper]
    omega
  atLineStart := h.atLineStart
  written := h.written

private theorem Describes.shallower (h : Describes (depth + 1) log w) :
    Describes depth log w.shallower where
  held := h.held
  level := by
    have hl := h.level
    simp only [CodeWriter.shallower]
    omega
  atLineStart := h.atLineStart
  written := h.written

theorem Describes.lines (h : Describes depth log w) (ts : List String) :
    Describes depth (ts.foldl (recordLine depth) log) (Code.runAll w (ts.map .line)) := by
  induction ts generalizing log w with
  | nil => exact h
  | cons t ts ih => exact ih (h.line t)

mutual

/-- A log goes along with a writer. The body of a block stands one block deeper in both. -/
theorem Describes.run {depth : Nat} {log : CodeLog} {w : CodeWriter} (h : Describes depth log w) :
    ∀ code : Code, Describes depth (log.run depth code) (Code.run w code)
  | .text t => h.record t.toList
  | .line t => h.line t
  | .blank => h.blank
  | .hold => h.hold
  | .release => h.release
  | .nested body => (h.deeper.runAll body).shallower
  | .braced header body => ((h.line (header ++ " \x7b")).deeper.runAll body).shallower.line "\x7d"
  | .suite header body => ((h.line (header ++ ":")).deeper.runAll body).shallower
  | .doc start content => by
    rw [Code.run, Code.doc_eq]
    exact h.lines _

private theorem Describes.runAll {depth : Nat} {log : CodeLog} {w : CodeWriter}
    (h : Describes depth log w) :
    ∀ code : List Code, Describes depth (log.runAll depth code) (Code.runAll w code)
  | [] => h
  | code :: rest => (h.run code).runAll rest

end

/-- What code writes is its log, line by line. -/
private theorem toList_render (unit : String) (code : List Code) :
    (Code.render unit code).toList =
      ['\n'].intercalate ((ofCode code).lines.map (lineChars unit)) := by
  obtain ⟨first, others, hl⟩ :=
    List.exists_cons_of_ne_nil (List.splitOnP_ne_nil (·.2 == '\n') (ofCode code).entries)
  have hu : (Code.runAll { unit := unit } code).unit = unit :=
    (Code.continues_runAll { unit := unit } code).unit
  have hw := ((describes_empty unit).runAll code).written
  rw [hu, ← ofCode, laidOut_eq_intercalate unit true hl, if_pos rfl] at hw
  rw [Code.render, CodeWriter.text, String.toList_ofList, hw, CodeLog.lines, hl, List.map_cons]

/-- Where the unit has no line feed, the lines of the text are those of the log. -/
private theorem pieces_render {unit : String} (hu : '\n' ∉ unit.toList) (code : List Code) :
    Text.pieces '\n' (Code.render unit code) =
      (ofCode code).lines.map fun line ↦ String.ofList (lineChars unit line) := by
  have hn : ∀ line ∈ (ofCode code).lines.map (lineChars unit), '\n' ∉ line :=
    List.forall_mem_map.mpr fun _ ↦ lineFeed_not_mem_lineChars hu
  have hne : (ofCode code).lines.map (lineChars unit) ≠ [] :=
    fun h ↦ List.splitOnP_ne_nil _ _ (List.map_eq_nil_iff.mp h)
  rw [Text.pieces_eq, toList_render, List.splitOn_intercalate _ hn hne, List.map_map]
  rfl

end CodeLog

/-! ## Writing a text -/

namespace CodeWriter

/-- Write one piece of a text, which has no line feed. -/
def writePiece (w : CodeWriter) (piece : String) : CodeWriter :=
  if piece.isEmpty then w
  else { w with
    written := piece.toList.reverse ++ ((if w.atLineStart then w.indentation else []).reverse ++
      w.written)
    atLineStart := false }

/-- Write the pieces of a text with line breaks between them. -/
def writePieces (w : CodeWriter) : List String → CodeWriter
  | [] => w
  | [last] => w.writePiece last
  | piece :: next :: rest => writePieces (w.writePiece piece).breakLine (next :: rest)

/-- A piece without line feeds is written as a whole. -/
private theorem foldl_put_of_not_mem (w : CodeWriter) {piece : String} (h : '\n' ∉ piece.toList) :
    piece.toList.foldl put w = w.writePiece piece := by
  by_cases he : piece = ""
  · subst he
    rfl
  · obtain ⟨c, cs, hc⟩ := List.exists_cons_of_ne_nil (String.toList_eq_nil_iff.not.mpr he)
    rw [hc, List.mem_cons, not_or] at h
    have hn : c ≠ '\n' := Ne.symm h.1
    have hs : startsLine w.atLineStart (c :: cs) = false := by
      rw [startsLine, List.foldl_cons, ← startsLine, beq_eq_false_iff_ne.mpr hn,
        startsLine_false_eq h.2]
    rw [writePiece, if_neg (by simpa using he), hc, foldl_put_eq, hs,
      indented_cons_of_ne hn, indented_false_eq h.2, List.reverse_append, List.append_assoc]

/-- Pieces that are joined by line feeds are written one after the other. -/
private theorem foldl_put_intercalate {pieces : List String}
    (h : ∀ piece ∈ pieces, '\n' ∉ piece.toList) (w : CodeWriter) :
    (['\n'].intercalate (pieces.map String.toList)).foldl put w = w.writePieces pieces := by
  induction pieces generalizing w with
  | nil => rfl
  | cons piece pieces ih =>
    obtain ⟨hp, hr⟩ := List.forall_mem_cons.mp h
    cases pieces with
    | nil =>
      rw [List.map_singleton, List.intercalate_singleton, foldl_put_of_not_mem w hp, writePieces]
    | cons next rest =>
      rw [List.map_cons, List.map_cons, List.intercalate_cons_cons, ← List.map_cons,
        List.foldl_append, List.foldl_append, foldl_put_of_not_mem w hp, ih hr, writePieces]
      rfl

/-- A text is written piece by piece, and an empty piece is not written. -/
private theorem write_eq_writePieces (w : CodeWriter) (text : String) :
    w.write text = w.writePieces (Text.pieces '\n' text) := by
  have hj : text.toList = ['\n'].intercalate ((Text.pieces '\n' text).map String.toList) := by
    rw [Text.pieces_eq, List.map_map, Function.comp_def]
    simp only [String.toList_ofList, List.map_id', List.intercalate_splitOn]
  rw [write, hj, foldl_put_intercalate fun _ ↦ Text.separator_not_mem]

/-- Texts one after the other are written like one text. -/
private theorem write_append (w : CodeWriter) (a b : String) :
    w.write (a ++ b) = (w.write a).write b := by
  rw [write, write, write, String.toList_append, List.foldl_append]

/-- A text that ends its line is written like any text with a line feed behind it. -/
private theorem line_eq_write (w : CodeWriter) (text : String) :
    w.line text = w.write (text ++ "\n") := by
  rw [write_append]
  rfl

end CodeWriter

/-! ## Giving back what is held -/

namespace Code

mutual

/-- How many levels are held behind a piece of code out of those that were taken along with it. It
has none if the code gives back a level that was there before. -/
def ownHeld (own : Nat) : Code → Option Nat
  | .hold => some (own + 1)
  | .release => if own = 0 then none else some (own - 1)
  | .nested body => ownHeldAll own body
  | .braced _ body => ownHeldAll own body
  | .suite _ body => ownHeldAll own body
  | .text _ => some own
  | .line _ => some own
  | .blank => some own
  | .doc _ _ => some own

/-- How many levels are held behind pieces of code. -/
def ownHeldAll (own : Nat) : List Code → Option Nat
  | [] => some own
  | code :: rest => (ownHeld own code).bind (ownHeldAll · rest)

end

/-- Code gives back exactly the levels that it takes itself. -/
def GivesBack (body : List Code) : Prop :=
  ownHeldAll 0 body = some 0

instance (body : List Code) : Decidable (GivesBack body) :=
  inferInstanceAs (Decidable (ownHeldAll 0 body = some 0))

end Code

namespace CodeWriter

/-- A writer stands some held levels deeper than it did. -/
structure Above (own : Nat) (start w : CodeWriter) : Prop where
  /-- Each of these levels counts. -/
  level : w.level = start.level + own
  /-- Each of these levels is held. -/
  held : w.held = start.held + own

variable {own : Nat} {start w : CodeWriter}

private theorem Above.refl (w : CodeWriter) : Above 0 w w :=
  ⟨rfl, rfl⟩

private theorem Above.foldl_put (h : Above own start w) (cs : List Char) :
    Above own start (cs.foldl put w) := by
  rw [foldl_put_eq]
  exact ⟨h.level, h.held⟩

theorem Above.line (h : Above own start w) (t : String) : Above own start (w.line t) := by
  rw [line_eq]
  exact h.foldl_put _

theorem Above.blank (h : Above own start w) : Above own start w.blank := by
  rw [CodeWriter.blank]
  split
  · exact ⟨h.level, h.held⟩
  · exact ⟨h.level, h.held⟩

theorem Above.hold (h : Above own start w) : Above (own + 1) start w.hold where
  level := congrArg (· + 1) h.level
  held := congrArg (· + 1) h.held

theorem Above.release (h : Above (own + 1) start w) : Above own start w.release := by
  have hr : w.release = { w.shallower with held := start.held + own } := by
    rw [CodeWriter.release, h.held]
    rfl
  rw [hr]
  exact ⟨congrArg (· - 1) h.level, rfl⟩

private theorem Above.deeper (h : Above own start w) : Above own start.deeper w.deeper where
  level := by simp only [CodeWriter.deeper, h.level, Nat.add_right_comm]
  held := h.held

private theorem Above.shallower (h : Above own start.deeper w) : Above own start w.shallower where
  level := by simp only [CodeWriter.shallower, h.level, CodeWriter.deeper, Nat.add_right_comm,
    Nat.add_sub_cancel]
  held := h.held

mutual

/-- What a piece of code holds itself is what the writer stands deeper behind it. -/
theorem Above.run {own own' : Nat} {start w : CodeWriter} (h : Above own start w) :
    ∀ code : Code, Code.ownHeld own code = some own' → Above own' start (Code.run w code)
  | .text t, ho => by
    obtain rfl := Option.some.inj ho
    exact h.foldl_put t.toList
  | .line t, ho => by
    obtain rfl := Option.some.inj ho
    exact h.line t
  | .blank, ho => by
    obtain rfl := Option.some.inj ho
    exact h.blank
  | .hold, ho => by
    obtain rfl := Option.some.inj ho
    exact h.hold
  | .release, ho => by
    cases own with
    | zero => cases ho
    | succ own =>
      obtain rfl := Option.some.inj ho
      exact h.release
  | .nested body, ho => (h.deeper.runAll body ho).shallower
  | .braced header body, ho =>
    ((h.line (header ++ " \x7b")).deeper.runAll body ho).shallower.line "\x7d"
  | .suite header body, ho => ((h.line (header ++ ":")).deeper.runAll body ho).shallower
  | .doc start content, ho => by
    obtain rfl := Option.some.inj ho
    rw [Code.run, Code.doc_eq, Code.runAll_map_line]
    exact h.foldl_put _

private theorem Above.runAll {own own' : Nat} {start w : CodeWriter} (h : Above own start w) :
    ∀ body : List Code, Code.ownHeldAll own body = some own' →
      Above own' start (Code.runAll w body)
  | [], ho => by
    obtain rfl := Option.some.inj ho
    exact h
  | code :: rest, ho => by
    obtain ⟨between, hc, hr⟩ := Option.bind_eq_some_iff.mp ho
    exact (h.run code hc).runAll rest hr

end

end CodeWriter

namespace Code

/-- Writing texts one after the other is writing them as one, and a text is written line by line.
The text of code is the lines that the code writes, each of them either empty or behind exactly one
unit for every level that was in force at its first character; a level is one that is held, or a
block. A block keeps the level if its body gives back what it takes. -/
theorem written_exactly_indented :
    (∀ (w : CodeWriter) (a b : String), (w.write a).write b = w.write (a ++ b) ∧
      w.line a = w.write (a ++ "\n") ∧ w.write a = w.writePieces (Text.pieces '\n' a)) ∧
    (∀ (unit : String) (code : List Code),
      (render unit code).toList = ['\n'].intercalate
        ((CodeLog.ofCode code).lines.map (CodeLog.lineChars unit)) ∧
      ('\n' ∉ unit.toList → Text.pieces '\n' (render unit code) =
        (CodeLog.ofCode code).lines.map fun line ↦ String.ofList (CodeLog.lineChars unit line)) ∧
      (runAll { unit := unit } code).level = (CodeLog.ofCode code).held) ∧
    ∀ (w : CodeWriter) (header : String) (body : List Code), GivesBack body →
      (run w (.braced header body)).level = w.level ∧
      (run w (.suite header body)).level = w.level := by
  refine ⟨fun w a b ↦ ⟨(w.write_append a b).symm, w.line_eq_write a, w.write_eq_writePieces a⟩,
    fun unit code ↦ ⟨CodeLog.toList_render unit code, fun hu ↦ CodeLog.pieces_render hu code, ?_⟩,
    fun w header body hb ↦ ⟨?_, ?_⟩⟩
  · rw [((CodeLog.describes_empty unit).runAll code).level, Nat.zero_add]
    rfl
  · exact ((CodeWriter.Above.refl w).run (.braced header body) hb).level
  · exact ((CodeWriter.Above.refl w).run (.suite header body) hb).level

/-- A body that takes a level within a line, writes lines at it, and gives it back. -/
def stepwise : List Code :=
  [.text "a", .hold, .text "b\nc", .blank, .release, .line "d"]

/-- A line takes the level at which its first text is written, and the level behind the block is the
one in front of it. -/
theorem written_exactly_indented_stepwise :
    '\n' ∉ "  ".toList ∧ GivesBack stepwise ∧
      Text.pieces '\n' (render "  " [.suite "f" stepwise, .line "g"]) =
        ["f:", "  ab", "    c", "", "  d", "g", ""] ∧
      (run { unit := "  ", level := 3 } (.braced "f" stepwise)).level = 3 := by
  have hu : '\n' ∉ "  ".toList := by decide
  have hb : GivesBack stepwise := by decide
  refine ⟨hu, hb, ?_, (written_exactly_indented.2.2 _ "f" stepwise hb).1⟩
  rw [(written_exactly_indented.2.1 "  " _).2.1 hu]
  decide +kernel

end Code

end RpcForge

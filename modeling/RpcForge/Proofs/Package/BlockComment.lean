import RpcForge.Package.TypeScriptClient
import RpcForge.Proofs.Code.Comments
import RpcForge.Proofs.Text.Escaping

/-!
# Documentation comments

A documentation comment is read back as tools for TypeScript read it: what stands between the
characters that open and close it, line by line, without the asterisk that a line may have in front.
A text is escaped before it is cut into lines, but what closes a comment has no line feed, so each
line is escaped by itself; and there is a blank between the asterisk in front of a line and the
line. So a comment keeps the lines of its text, and only its last two characters close it.
-/

namespace RpcForge.Comment

open RpcForge.Text
open Code (docLines)
open CodeWriter (indented indented_append indented_false_eq indented_lineFeed_cons
  map_splitOn_indented startsLine trimmedPieces_indented)

/-! ## Reading -/

/-- A line of a comment without the asterisk in front of it, and without the blanks around it. -/
def withoutAsterisk (row : List Char) : List Char :=
  match dropBlanks row with
  | '*' :: content => trimChars content
  | content => trimChars content

/-- The lines of what stands between the characters that open and close a comment, without empty
ones at either end. There is no asterisk in front of the first one. -/
def saidChars (inner : List Char) : List (List Char) :=
  match inner.splitOn '\n' with
  | [] => []
  | first :: rest => dropEmptyEnds (trimChars first :: rest.map withoutAsterisk)

/-- What a documentation comment says, line by line. -/
def said (comment : String) : List String :=
  (saidChars (comment.toList.drop 3).dropLast.dropLast).map String.ofList

/-- A text with a backslash between the two characters that close a comment, wherever they occur. -/
def escapeClosing (text : String) : String :=
  replace text "*/" "*\\/"

/-- A comment documents a text. -/
structure Documents (text comment : String) : Prop where
  /-- It begins like a documentation comment. -/
  opens : startsWith comment "/**" = true
  /-- What closes it is its end and occurs nowhere else. -/
  closes : ClosesOnce comment
  /-- It says the lines of the text, escaped, with the blank ones between others. -/
  reads : said comment = (trimmedLines text).map escapeClosing
  /-- Of the lines of the text it keeps all that are not blank. -/
  keeps : (said comment).filter (!·.isEmpty) =
    ((lines text).filter (!isBlankText ·)).map fun line ↦ escapeClosing (trim line)
  /-- Several lines stand on lines of their own, also apart from what opens and closes it. -/
  apart : 2 ≤ (trimmedLines text).length → ∃ rows,
    trimmedLines comment = "/**" :: rows ++ ["*/"] ∧ rows.length = (trimmedLines text).length

private theorem withoutAsterisk_cons {c : Char} (h : isBlank c = true) (row : List Char) :
    withoutAsterisk (c :: row) = withoutAsterisk row := by
  rw [withoutAsterisk, dropBlanks, List.dropWhile_cons_of_pos h, ← dropBlanks]
  rfl

private theorem saidChars_of_not_mem {inner : List Char} (h : '\n' ∉ inner) :
    saidChars inner = dropEmptyEnds (trimmedPieces inner) := by
  rw [saidChars, trimmedPieces, List.splitOn_eq_singleton h]
  rfl

private theorem saidChars_lineFeed_cons (inner : List Char) :
    saidChars ('\n' :: inner) = dropEmptyEnds ((inner.splitOn '\n').map withoutAsterisk) := by
  have hs : ('\n' :: inner).splitOn '\n' = [] :: inner.splitOn '\n' :=
    List.splitOn_append_cons_self_of_not_mem List.not_mem_nil inner
  rw [saidChars, hs]
  exact dropEmptyEnds_cons_nil _

/-! ## Escaping -/

private theorem keepsBlanks_closing : KeepsBlanks (replaceFrom ['*', '/'] ['*', '\\', '/'] 0) :=
  keepsBlanks_replaceFrom (by simp) (by simp) (by decide) (by decide)

private theorem toList_escapeClosing (text : String) :
    (escapeClosing text).toList = replaceFrom ['*', '/'] ['*', '\\', '/'] 0 text.toList :=
  toList_replace (by decide) text _

private theorem escapeBlock_eq (text : String) : escapeBlock text = trim (escapeClosing text) :=
  (keepsBlanks_closing.trim toList_escapeClosing text).symm

/-- The lines of what stands in a comment are those of the text, each escaped. -/
private theorem trimmedLines_escapeBlock (text : String) :
    trimmedLines (escapeBlock text) = (trimmedLines text).map escapeClosing := by
  rw [escapeBlock_eq, trimmedLines_trim,
    keepsBlanks_closing.trimmedLines toList_escapeClosing]

private theorem isEmpty_escapeClosing (text : String) :
    (escapeClosing text).isEmpty = text.isEmpty :=
  keepsBlanks_closing.isEmpty_text toList_escapeClosing text

private theorem isEmpty_escapeBlock (text : String) :
    (escapeBlock text).isEmpty = isBlankText text :=
  (isEmpty_escapeClosing (trim text)).trans (isEmpty_trim text)

private theorem isTrimmed_escapeBlock (text : String) : IsTrimmed (escapeBlock text).toList := by
  rw [escapeBlock_eq, toList_trim]
  exact isTrimmed_trimChars _

/-! ## Layout -/

/-- What stands in a comment behind the characters that open it, up to the blank in front of those
that close it. -/
def inner (content : String) : List Char :=
  if hasChar content '\n' then
    '\n' :: (docLines " *" content).flatMap fun t ↦ t.toList ++ ['\n']
  else ' ' :: content.toList

/-- A comment whose lines are indented, from the character that opens it. -/
def laidOut (indentation : List Char) (content : String) : String :=
  String.ofList (indented indentation false
    ('/' :: (['*', '*'] ++ inner content ++ [' ']) ++ ['*', '/']))

/-- What is written for a text that is not blank is its comment, in a line or in several ones. -/
private theorem since_block {text : String} (h : isBlankText text = false) (w : CodeWriter) :
    (Code.runAll w (block text)).since w =
      String.ofList (if w.atLineStart then w.indentation else []) ++
        laidOut w.indentation (escapeBlock text) ++ "\n" := by
  have hr : Code.runAll w (block text) =
      ('/' :: (['*', '*'] ++ inner (escapeBlock text) ++ [' ']) ++ ['*', '/'] ++
        ['\n']).foldl CodeWriter.put w := by
    rw [inner, block]
    simp only [isEmpty_escapeBlock, h, Bool.false_eq_true, if_false]
    generalize escapeBlock text = content
    split
    · exact Code.runAll_doc w content
    · exact Code.line_comment w content
  rw [hr, Code.since_comment, String.ofList_append, String.ofList_append]
  rfl

private theorem toList_laidOut (indentation : List Char) (content : String) :
    (laidOut indentation content).toList =
      "/**".toList ++ indented indentation false (inner content ++ [' ']) ++ ['*', '/'] := by
  have hs : startsLine false (['*', '*'] ++ inner content ++ [' ']) = false := by
    rw [startsLine, List.foldl_append]
    rfl
  have hi : indented indentation false (['*', '*'] ++ inner content ++ [' ']) =
      ['*', '*'] ++ indented indentation false (inner content ++ [' ']) := by
    rw [List.append_assoc, indented_append]
    rfl
  rw [laidOut, String.toList_ofList, Code.indented_comment, hs, hi]
  simp

private theorem startsWith_laidOut (indentation : List Char) (content : String) :
    startsWith (laidOut indentation content) "/**" = true := by
  rw [startsWith_iff, toList_laidOut, List.append_assoc]
  exact List.prefix_append _ _

private theorem closesOnce_laidOut {w : CodeWriter} (hw : w.IndentsByBlanks) {content : String}
    (h : hasPart content "*/" = false) : ClosesOnce (laidOut w.indentation content) := by
  rw [laidOut, Code.closesOnce_indented_iff hw, inner]
  split
  · exact Code.occursIn_doc h
  · exact (Code.occursIn_comment content).trans h

/-- A comment says what stands between the characters that open and close it. -/
private theorem said_laidOut (indentation : List Char) (content : String) :
    said (laidOut indentation content) =
      (saidChars (indented indentation false (inner content ++ [' ']))).map String.ofList := by
  rw [said, toList_laidOut]
  simp

/-! ## Lines -/

private theorem lineFeed_not_mem_docLines {content t : String} (h : t ∈ docLines " *" content) :
    '\n' ∉ t.toList := by
  obtain ⟨line, hl, rfl⟩ := List.mem_map.mp h
  obtain ⟨cs, hc, rfl⟩ := List.mem_map.mp hl
  split
  · decide
  · have hn := lineFeed_not_mem_linesFrom List.not_mem_nil hc
    have hp : dropBlanksRight cs <+: cs := List.rdropWhile_prefix isBlank cs
    have hs : '\n' ∉ dropBlanksRight cs := fun hm ↦ hn (hp.subset hm)
    simpa [trimEnd] using hs

/-- The asterisk in front of a line is the one that is not read. -/
private theorem withoutAsterisk_docLine (cs : List Char) :
    withoutAsterisk (if (trimEnd (String.ofList cs)).isEmpty then trimEnd " *"
      else " *" ++ " " ++ trimEnd (String.ofList cs)).toList = trimChars cs := by
  have he : trimEnd (String.ofList cs) = String.ofList (dropBlanksRight cs) := by
    rw [trimEnd, String.toList_ofList]
  rw [he, isEmpty_ofList, ← trimChars_dropBlanksRight cs]
  split
  · next h =>
    rw [List.isEmpty_iff.mp h]
    rfl
  · have hr : (" *" ++ " " ++ String.ofList (dropBlanksRight cs)).toList =
        ' ' :: '*' :: ' ' :: dropBlanksRight cs := by
      simp
    rw [hr]
    exact trimChars_cons (by decide) _

private theorem map_withoutAsterisk_docLines (content : String) :
    (docLines " *" content).map (fun t ↦ withoutAsterisk t.toList) =
      (linesFrom [] content.toList).map trimChars := by
  rw [docLines, lines, List.map_map, List.map_map]
  refine List.map_congr_left fun cs _ ↦ ?_
  rw [Function.comp_apply, Function.comp_apply, withoutAsterisk_docLine]

/-- Lines behind asterisks come apart again. -/
private theorem splitOn_docLines (content : String) {back : List Char} (hb : '\n' ∉ back) :
    ((docLines " *" content).flatMap (fun t ↦ t.toList ++ ['\n']) ++ back).splitOn '\n' =
      (docLines " *" content).map String.toList ++ [back] := by
  have hn : ∀ l ∈ (docLines " *" content).map String.toList, '\n' ∉ l :=
    List.forall_mem_map.mpr fun _ ↦ lineFeed_not_mem_docLines
  rw [← splitOn_flatMap_lineFeed hn hb, List.flatMap_map]

section

variable {indentation : List Char} (hb : ∀ c ∈ indentation, isBlank c = true)
  (hn : '\n' ∉ indentation) {content : String} (ht : IsTrimmed content.toList)

include hb hn

include ht in
/-- A comment says its lines. -/
private theorem said_laidOut_eq : said (laidOut indentation content) = trimmedLines content := by
  rw [said_laidOut, trimmedLines_eq, inner]
  refine congrArg (List.map String.ofList) ?_
  split
  · next h =>
    have hne : content.toList ≠ [] := by
      intro he
      rw [hasChar, he] at h
      cases h
    have hi (c : Char) (hc : c ∈ indentation) (row : List Char) :
        withoutAsterisk (c :: row) = withoutAsterisk row :=
      withoutAsterisk_cons (hb c hc) row
    have hw : withoutAsterisk [' '] = [] := by decide
    rw [List.cons_append, indented_lineFeed_cons, saidChars_lineFeed_cons,
      map_splitOn_indented hi hn, splitOn_docLines content (by decide), List.map_append,
      List.map_map, List.map_singleton, hw, dropEmptyEnds_concat_nil, Function.comp_def,
      map_withoutAsterisk_docLines, map_linesFrom_of_isTrimmed ht hne]
  · next h =>
    have hc : '\n' ∉ content.toList := by simpa [hasChar] using h
    have hi : '\n' ∉ ' ' :: content.toList ++ [' '] := by simp [hc]
    have hs : ∀ c ∈ [' '], isBlank c = true := List.forall_mem_singleton.mpr (by decide)
    rw [indented_false_eq hi, saidChars_of_not_mem hi]
    exact dropEmptyEnds_trimmedPieces_between hs hs content.toList

/-- Several lines stand between a line that opens the comment and one that closes it. -/
private theorem trimmedLines_laidOut (hc : hasChar content '\n' = true) :
    trimmedLines (laidOut indentation content) =
      "/**" :: (docLines " *" content).map trim ++ ["*/"] := by
  have hs : '/' :: (['*', '*'] ++ inner content ++ [' ']) ++ ['*', '/'] =
      "/**".toList ++ '\n' ::
        ((docLines " *" content).flatMap (fun t ↦ t.toList ++ ['\n']) ++ " */".toList) := by
    rw [inner, if_pos hc]
    simp
  have hp : trimmedPieces ('/' :: (['*', '*'] ++ inner content ++ [' ']) ++ ['*', '/']) =
      "/**".toList :: (docLines " *" content).map (fun t ↦ trimChars t.toList) ++
        ["*/".toList] := by
    rw [hs, trimmedPieces_append_lineFeed (by decide), trimmedPieces,
      splitOn_docLines content (by decide), List.map_append, List.map_map]
    rfl
  rw [trimmedLines_eq, laidOut, String.toList_ofList, trimmedPieces_indented hb hn, hp,
    dropEmptyEnds_cons_concat (by decide) (by decide)]
  simp [trim_eq]

end

/-- The lines that are kept are not blank before they are escaped. -/
private theorem filter_map_escapeClosing (text : String) :
    ((trimmedLines text).map escapeClosing).filter (!·.isEmpty) =
      ((lines text).filter (!isBlankText ·)).map fun line ↦ escapeClosing (trim line) := by
  have he : (!·.isEmpty) ∘ escapeClosing = fun line : String ↦ !line.isEmpty := by
    funext line
    rw [Function.comp_apply, isEmpty_escapeClosing]
  rw [List.filter_map, he, filter_trimmedLines, List.map_map]
  rfl

/-- There are as many lines behind asterisks as the text has. -/
private theorem length_docLines (text : String) :
    (docLines " *" (escapeBlock text)).length = (trimmedLines text).length := by
  have ht : trim (escapeBlock text) = escapeBlock text := by
    rw [trim_eq, (isTrimmed_escapeBlock text).trimChars_eq, String.ofList_toList]
  have hl := congrArg List.length (trimmedLines_escapeBlock text)
  rw [trimmedLines, ht, List.length_map, List.length_map] at hl
  rw [docLines, List.length_map, hl]

/-- The comment of a text documents it. -/
private theorem documents_laidOut {w : CodeWriter} (hw : w.IndentsByBlanks) (text : String) :
    Documents text (laidOut w.indentation (escapeBlock text)) := by
  have hb : ∀ c ∈ w.indentation, isBlank c = true := hw.isBlank_margin true
  have hn : '\n' ∉ w.indentation := fun hc ↦ absurd (hw.eq_of_mem hc) (by decide)
  have hs : said (laidOut w.indentation (escapeBlock text)) =
      (trimmedLines text).map escapeClosing :=
    (said_laidOut_eq hb hn (isTrimmed_escapeBlock text)).trans (trimmedLines_escapeBlock text)
  constructor
  case opens => exact startsWith_laidOut _ _
  case closes => exact closesOnce_laidOut hw (hasPart_escapeBlock text)
  case reads => exact hs
  case keeps => rw [hs, filter_map_escapeClosing]
  case apart =>
    intro h
    -- a text without a line feed has a single line
    have hc : hasChar (escapeBlock text) '\n' = true := by
      by_contra hc
      have hl := length_trimmedLines_le_one (by simpa [hasChar] using hc)
      rw [trimmedLines_escapeBlock, List.length_map] at hl
      omega
    exact ⟨_, trimmedLines_laidOut hb hn hc, by rw [List.length_map, length_docLines]⟩

/-- What is written for a text is nothing exactly if the text is blank. Otherwise it is a comment
that documents the text, behind the margin of its first line and with a line feed at its end. -/
theorem block_documents {w : CodeWriter} (hw : w.IndentsByBlanks) (text : String) :
    ((Code.runAll w (block text)).since w = "" ↔ isBlankText text = true) ∧
      (isBlankText text = false → ∃ comment, Documents text comment ∧
        (Code.runAll w (block text)).since w =
          String.ofList (if w.atLineStart then w.indentation else []) ++ comment ++ "\n") := by
  refine ⟨⟨fun h ↦ ?_, fun h ↦ ?_⟩, fun h ↦ ⟨_, documents_laidOut hw text, since_block h w⟩⟩
  · by_contra hb
    rw [since_block (Bool.not_eq_true _ ▸ hb) w, String.append_eq_empty_iff] at h
    exact absurd h.2 (by decide)
  · rw [block]
    simp [isEmpty_escapeBlock, h, Code.runAll, CodeWriter.since]

/-- A text whose lines begin and end with parts of what closes a comment. -/
def asterisks : String := "  */ ends *\r\n \n/ * begins\n\t*/*/ **"

/-- A writer that stands two levels deep. -/
def twoDeep : CodeWriter := { unit := TypeScriptClient.indentation, level := 2 }

/-- Only the last line of the comment ends it, whatever the lines of the text begin and end with. -/
theorem block_documents_asterisks :
    twoDeep.IndentsByBlanks ∧ isBlankText asterisks = false ∧
      (Code.runAll twoDeep (block asterisks)).since twoDeep =
        "    /**\n     * *\\/ ends *\n     *\n     * / * begins\n     * \t*\\/*\\/ **\n     */\n" ∧
      ∃ comment, Documents asterisks comment ∧
        (Code.runAll twoDeep (block asterisks)).since twoDeep = "    " ++ comment ++ "\n" := by
  have hw : twoDeep.IndentsByBlanks := CodeWriter.indentsByBlanks_of_all (by decide)
  have hb : isBlankText asterisks = false := by decide
  have hm : String.ofList (if twoDeep.atLineStart then twoDeep.indentation else []) = "    " := by
    decide +kernel
  have hd := (block_documents hw asterisks).2 hb
  rw [hm] at hd
  exact ⟨hw, hb, by decide +kernel, hd⟩

end RpcForge.Comment

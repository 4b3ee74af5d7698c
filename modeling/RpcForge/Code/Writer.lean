import RpcForge.Text.Blank
import RpcForge.Text.Pieces

/-!
# Writing indented code

A writer holds the text written so far, a level of indentation, and whether it stands at the start
of a line. Whatever comes first on a line is preceded by as many units of indentation as the level
says; an empty line gets none. A line break inside a text counts like any other.

`Code` is a piece of code as data: what to write, in which order. Running it on a writer is the one
way in which generated sources become text.
-/

namespace RpcForge

/-- A writer of indented code. -/
structure CodeWriter where
  /-- One unit of indentation. -/
  unit : String
  /-- The level of indentation. -/
  level : Nat := 0
  /-- How many levels are held until they are given back one by one. -/
  held : Nat := 0
  /-- Whether nothing was written on the current line yet. -/
  atLineStart : Bool := true
  /-- The characters written so far, backwards. -/
  written : List Char := []
deriving Inhabited

namespace CodeWriter

/-- The text written so far. -/
def text (w : CodeWriter) : String :=
  String.ofList w.written.reverse

/-- The indentation of a line at the current level. -/
def indentation (w : CodeWriter) : List Char :=
  (List.replicate w.level w.unit.toList).flatten

/-- End the current line. -/
def breakLine (w : CodeWriter) : CodeWriter :=
  { w with written := '\n' :: w.written, atLineStart := true }

/-- Write one character. -/
def put (w : CodeWriter) (c : Char) : CodeWriter :=
  if c = '\n' then w.breakLine
  else if w.atLineStart then
    { w with written := c :: (w.indentation.reverse ++ w.written), atLineStart := false }
  else { w with written := c :: w.written }

/-- Write a text. -/
def write (w : CodeWriter) (text : String) : CodeWriter :=
  text.toList.foldl put w

/-- Write a text and end the line. -/
def line (w : CodeWriter) (text : String) : CodeWriter :=
  (w.write text).breakLine

/-- Leave a line empty, after ending the current one if something stands on it. -/
def blank (w : CodeWriter) : CodeWriter :=
  if w.atLineStart then w.breakLine else w.breakLine.breakLine

/-- Indent by one more level. -/
def deeper (w : CodeWriter) : CodeWriter :=
  { w with level := w.level + 1 }

/-- Indent by one level less, but not by less than none. -/
def shallower (w : CodeWriter) : CodeWriter :=
  { w with level := w.level - 1 }

/-- Hold one more level. -/
def hold (w : CodeWriter) : CodeWriter :=
  { w.deeper with held := w.held + 1 }

/-- Give back one held level, if there is one. -/
def release (w : CodeWriter) : CodeWriter :=
  match w.held with
  | 0 => w
  | held + 1 => { w.shallower with held := held }

/-- Write each line of a text behind a prefix. -/
def doc (w : CodeWriter) (start text : String) : CodeWriter :=
  (Text.lines text).foldl
    (fun w line ↦
      let content := Text.trimEnd line
      if content.isEmpty then w.line (Text.trimEnd start) else w.line (start ++ " " ++ content)) w

end CodeWriter

/-- A piece of code. -/
inductive Code where
  /-- A text, without a line break at its end. -/
  | text (t : String)
  /-- A text that ends its line. -/
  | line (t : String)
  /-- An empty line. -/
  | blank
  /-- Hold one level of indentation from here on. -/
  | hold
  /-- Give back the level that was held last. -/
  | release
  /-- Code that is indented by one more level. -/
  | nested (body : List Code)
  /-- A header with an opening brace, an indented body, and a closing brace. -/
  | braced (header : String) (body : List Code)
  /-- A header with a colon, and an indented body. -/
  | suite (header : String) (body : List Code)
  /-- Each line of a text behind a prefix. -/
  | doc (start content : String)
deriving Inhabited

namespace Code

/-- Texts with a separator between them. -/
def separated (separator : String) (items : List String) : Code :=
  .text (separator.intercalate items)

mutual

/-- Write a piece of code. -/
def run (w : CodeWriter) : Code → CodeWriter
  | .text t => w.write t
  | .line t => w.line t
  | .blank => w.blank
  | .hold => w.hold
  | .release => w.release
  | .nested body => (runAll w.deeper body).shallower
  | .braced header body =>
    ((runAll (w.line (header ++ " \x7b")).deeper body).shallower).line "\x7d"
  | .suite header body => (runAll (w.line (header ++ ":")).deeper body).shallower
  | .doc start content => w.doc start content

/-- Write pieces of code one after the other. -/
def runAll (w : CodeWriter) : List Code → CodeWriter
  | [] => w
  | code :: rest => runAll (run w code) rest

end

/-- The text of code that is indented by a unit. -/
def render (unit : String) (code : List Code) : String :=
  (runAll { unit := unit } code).text

end Code

end RpcForge

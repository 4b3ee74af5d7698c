/-!
# TOML

Tables of strings and of lists of strings, in a fixed order. A string is written in the plainest of
the four forms that holds it without escapes; one that no form holds is escaped between double
quotes.
-/

namespace RpcForge.Toml

/-- A value. -/
inductive Value where
  /-- A string. -/
  | string (text : String)
  /-- A list of strings. -/
  | list (texts : List String)
deriving DecidableEq, Repr

/-- A table under its header. -/
structure Table where
  /-- The header with its brackets. -/
  header : String
  /-- The values under their keys. -/
  entries : List (String × Value)

/-- The number of occurrences of a character in the longest stretch of them; `run` of them were seen
just now, and `longest` is the most so far. -/
def longestRunFrom (mark : Char) (run longest : Nat) : List Char → Nat
  | [] => longest
  | c :: cs =>
    if c = mark then longestRunFrom mark (run + 1) (max longest (run + 1)) cs
    else longestRunFrom mark 0 longest cs

/-- The number of occurrences of a character in the longest stretch of them. -/
def longestRun (mark : Char) (cs : List Char) : Nat :=
  longestRunFrom mark 0 0 cs

/-- Whether a character never stands for itself in a string. -/
def isControl (c : Char) : Bool :=
  (c.toNat < 0x20 && c != '\t' && c != '\n') || c.toNat == 0x7F

/-- How one character of the first 128 is written by its number. -/
def codeEscape (c : Char) : List Char :=
  let digits := (Nat.toDigits 16 c.toNat).map Char.toUpper
  ['\\', 'u'] ++ List.replicate (4 - digits.length) '0' ++ digits

/-- How a character other than a double quote is written between double quotes. -/
def escapeChar (multiline : Bool) (c : Char) : List Char :=
  if c = '\x08' then ['\\', 'b']
  else if c = '\t' then ['\\', 't']
  else if c = '\n' then (if multiline then ['\n'] else ['\\', 'n'])
  else if c = '\x0c' then ['\\', 'f']
  else if c = '\r' then ['\\', 'r']
  else if c = '\\' then ['\\', '\\']
  else if isControl c then codeEscape c
  else [c]

/-- How characters are written between double quotes, `quotes` of which were written just now. As
many of them as `limit` may follow each other. -/
def escapeFrom (multiline : Bool) (limit quotes : Nat) : List Char → List Char
  | [] => []
  | c :: cs =>
    if c = '"' then
      if quotes < limit then '"' :: escapeFrom multiline limit (quotes + 1) cs
      else '\\' :: '"' :: escapeFrom multiline limit 0 cs
    else escapeChar multiline c ++ escapeFrom multiline limit 0 cs

/-- Characters between single double quotes. -/
def basic (cs : List Char) : List Char :=
  '"' :: escapeFrom false 0 0 cs ++ ['"']

/-- The line break behind opening triple quotes, which stands there if the text has one itself. -/
def openingBreak (cs : List Char) : List Char :=
  if cs.contains '\n' then ['\n'] else []

/-- Characters between triple double quotes. -/
def multiline (cs : List Char) : List Char :=
  ['"', '"', '"'] ++ openingBreak cs ++ escapeFrom true 2 0 cs ++ ['"', '"', '"']

/-- Characters between single quotes. -/
def literal (cs : List Char) : List Char :=
  '\'' :: cs ++ ['\'']

/-- Characters between triple single quotes. -/
def multilineLiteral (cs : List Char) : List Char :=
  ['\'', '\'', '\''] ++ openingBreak cs ++ cs ++ ['\'', '\'', '\'']

/-- How the characters of a string are written. -/
def stringChars (cs : List Char) : List Char :=
  let controls := cs.any isControl
  let broken := cs.contains '\n'
  let backslash := cs.contains '\\'
  let doubles := longestRun '"' cs
  let singles := longestRun '\'' cs
  if !controls && !backslash && doubles == 0 && !broken then basic cs
  else if !controls && singles == 0 && !broken then literal cs
  else if !controls && !backslash && doubles ≤ 2 then multiline cs
  else if !controls && singles ≤ 2 then multilineLiteral cs
  else if broken then multiline cs
  else basic cs

/-- How a string is written. -/
def string (text : String) : String :=
  String.ofList (stringChars text.toList)

/-- How a value is written. -/
def Value.render : Value → String
  | .string text => Toml.string text
  | .list texts => "[" ++ ", ".intercalate (texts.map Toml.string) ++ "]"

/-- The lines of a table. -/
def Table.lines (table : Table) : List String :=
  table.header :: table.entries.map fun (key, v) ↦ key ++ " = " ++ v.render

/-- Tables with empty lines between them. -/
def render (tables : List Table) : String :=
  "\n".intercalate (tables.map fun table ↦ String.join (table.lines.map (· ++ "\n")))

end RpcForge.Toml

import RpcForge.Code.Writer

/-!
# Comments

Texts of a document as documentation in generated sources. Whatever a text holds, it does not end
the comment that it stands in.
-/

namespace RpcForge.Comment

open RpcForge.Text

/-- What a generated source says about itself. -/
def notice : String := "Generated by openrpc-codegen. Do not edit by hand."

/-- The documentation of a whole source. -/
def heading (title kind : String) : String :=
  title ++ " " ++ kind ++ ".\n\n" ++ notice

/-- Three quotes, between which a Python docstring stands. -/
def tripleQuote : String := "\"\"\""

/-- A text as it stands between triple quotes: backslashes are doubled, and three quotes in a row
are written with a backslash before each. -/
def escapeDocstring (text : String) : String :=
  replace (replace text "\\" "\\\\") tripleQuote "\\\"\\\"\\\""

/-- The lines of a Python docstring without blanks around them. -/
def docstringLines (text : String) : List String :=
  (lines (escapeDocstring (trim text))).map trim

/-- A text as a Python docstring; a blank text has none. -/
def docstring (text : String) : List Code :=
  match docstringLines text with
  | [] => []
  | [single] => [.line (tripleQuote ++ single ++ tripleQuote)]
  | first :: rest => .line (tripleQuote ++ first) :: rest.map .line ++ [.line tripleQuote]

/-- A text as it stands in a block comment. -/
def escapeBlock (text : String) : String :=
  replace (trim text) "*/" "*\\/"

/-- A text as a documentation comment of TypeScript; a blank text has none. -/
def block (text : String) : List Code :=
  let content := escapeBlock text
  if content.isEmpty then []
  else if hasChar content '\n' then [.line "/**", .doc " *" content, .line " */"]
  else [.line ("/** " ++ content ++ " */")]

end RpcForge.Comment

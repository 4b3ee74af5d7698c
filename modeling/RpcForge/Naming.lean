import RpcForge.Json.Value
import RpcForge.Text.Words

/-!
# Names in generated sources

Every text of a document can become a name: of a package, a class, a method, a parameter, a member
of an enumeration. A name is made of ASCII letters, digits and underscores, does not begin with a
digit and is not empty. Reserved words of a target language are avoided by an underscore at the end,
and repeated names by a number.
-/

namespace RpcForge.Naming

open RpcForge.Text RpcForge.Json

/-- The name to take where nothing is left of a text. -/
def placeholder : String := "method"

/-- Whether a character may stand in a name. -/
def isNameChar (c : Char) : Bool :=
  c.isAlphanum || c == '_'

/-- The characters of a text as a name: those that may not stand in one are dropped, a digit in
front gets a letter before it, and where nothing is left the placeholder is taken. -/
def sanitizeChars (text : List Char) : List Char :=
  match text.filter isNameChar with
  | [] => placeholder.toList
  | c :: cs => if c.isDigit then 'n' :: c :: cs else c :: cs

/-- A text as a name in its own casing. -/
def sanitize (text : String) : String :=
  String.ofList (sanitizeChars text.toList)

/-- A text as a name in a casing of its words. -/
def cased (join : List (List Char) → List Char) (text : String) : String :=
  String.ofList (sanitizeChars (join (words text.toList)))

/-- A text as a name like `MathApi`. -/
def pascal (text : String) : String :=
  cased joinPascal text

/-- A text as a name like `mathApi`. -/
def camel (text : String) : String :=
  cased joinCamel text

/-- A text as a name like `math_api`. -/
def snake (text : String) : String :=
  cased joinSnake text

/-- A text as a name like `MATH_API`. -/
def shouty (text : String) : String :=
  cased joinShouty text

/-- The reserved words of Python. -/
def pythonKeywords : List String :=
  ["False", "None", "True", "and", "as", "assert", "async", "await", "break", "class", "continue",
    "def", "del", "elif", "else", "except", "finally", "for", "from", "global", "if", "import",
    "in", "is", "lambda", "nonlocal", "not", "or", "pass", "raise", "return", "try", "while",
    "with", "yield"]

/-- The names that a generated Python method binds itself. -/
def pythonBoundNames : List String := ["self"]

/-- The reserved words of TypeScript. -/
def typeScriptReserved : List String :=
  ["break", "case", "catch", "class", "const", "continue", "debugger", "default", "delete", "do",
    "else", "enum", "export", "extends", "false", "finally", "for", "function", "if", "import",
    "in", "instanceof", "new", "null", "return", "super", "switch", "this", "throw", "true", "try",
    "typeof", "var", "void", "while", "with"]

/-- A name with an underscore behind it if it is one of the given words. -/
def avoid (words : List String) (name : String) : String :=
  if words.contains name then name ++ "_" else name

/-- A text as the name of a Python parameter or attribute. -/
def pythonIdentifier (text : String) : String :=
  avoid (pythonKeywords ++ pythonBoundNames) (snake text)

/-- A text as the name of a TypeScript parameter. -/
def typeScriptIdentifier (text : String) : String :=
  avoid typeScriptReserved (camel text)

/-- The written form of a number as part of a name: signs and points are spelled out. -/
def numberChars (c : Char) : List Char :=
  if c = '-' then "MINUS_".toList
  else if c = '.' then ['_']
  else [c]

/-- The name of the member of an enumeration that stands for a value. -/
def enumMember : Value → String
  | .string s => shouty s
  | .number n => "NUMBER_" ++ String.ofList (n.render.toList.flatMap numberChars)
  | .bool true => "TRUE"
  | .bool false => "FALSE"
  | .null => "NONE"
  | .array _ => "VALUE"
  | .object _ => "VALUE"

/-- A name with a number behind it. -/
def numbered (name : String) (k : Nat) : String :=
  name ++ "_" ++ toString k

/-- The name itself if it is not taken, and otherwise the name with the least number from two on
that is not taken. Among as many numbers as there are taken names and one more, some number is
free. -/
def fresh (taken : List String) (name : String) : String :=
  if taken.contains name then
    (((List.range (taken.length + 1)).map fun k ↦ numbered name (k + 2)).find?
      (!taken.contains ·)).getD name
  else name

/-- Names made distinct from the `taken` ones and from each other, from left to right. -/
def uniqueAfter (taken : List String) : List String → List String
  | [] => []
  | name :: rest => fresh taken name :: uniqueAfter (fresh taken name :: taken) rest

/-- Names made distinct by numbers behind repeated ones. -/
def unique (names : List String) : List String :=
  uniqueAfter [] names

end RpcForge.Naming

import RpcForge.Json.Value
import RpcForge.Text.Quoted

/-!
# Writing JSON

A value as one line without spaces, and as lines indented by two spaces.
-/

namespace RpcForge.Json.Value

open RpcForge.Text (quote)

mutual

/-- A value as JSON without spaces. -/
def compact : Value → String
  | .null => "null"
  | .bool true => "true"
  | .bool false => "false"
  | .number n => n.render
  | .string s => quote s
  | .array items => "[" ++ ",".intercalate (compactItems items) ++ "]"
  | .object members => "\x7b" ++ ",".intercalate (compactMembers members) ++ "\x7d"

/-- Each item as JSON without spaces. -/
def compactItems : List Value → List String
  | [] => []
  | v :: vs => compact v :: compactItems vs

/-- Each member as a key, a colon and its value without spaces. -/
def compactMembers : List (String × Value) → List String
  | [] => []
  | (k, v) :: rest => (quote k ++ ":" ++ compact v) :: compactMembers rest

end

/-- A line break followed by two spaces for every level. -/
def lineBreak (level : Nat) : String :=
  String.ofList ('\n' :: List.replicate (2 * level) ' ')

/-- Elements on lines of their own between two brackets; no line at all where there is none. -/
def bracketed (opening closing : String) (level : Nat) (elements : List String) : String :=
  if elements.isEmpty then opening ++ closing
  else opening ++ lineBreak (level + 1) ++ ("," ++ lineBreak (level + 1)).intercalate elements ++
    lineBreak level ++ closing

mutual

/-- A value as indented JSON, at a level of indentation. -/
def prettyAt (level : Nat) : Value → String
  | .array items => bracketed "[" "]" level (prettyItems (level + 1) items)
  | .object members => bracketed "\x7b" "\x7d" level (prettyMembers (level + 1) members)
  | .null => "null"
  | .bool true => "true"
  | .bool false => "false"
  | .number n => n.render
  | .string s => quote s

/-- Each item as indented JSON. -/
def prettyItems (level : Nat) : List Value → List String
  | [] => []
  | v :: vs => prettyAt level v :: prettyItems level vs

/-- Each member as a key, a colon, a space and its value as indented JSON. -/
def prettyMembers (level : Nat) : List (String × Value) → List String
  | [] => []
  | (k, v) :: rest => (quote k ++ ": " ++ prettyAt level v) :: prettyMembers level rest

end

/-- A value as JSON on indented lines. -/
def pretty (v : Value) : String :=
  prettyAt 0 v

end RpcForge.Json.Value

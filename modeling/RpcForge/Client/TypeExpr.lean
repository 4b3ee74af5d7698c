import RpcForge.Client.Choice
import RpcForge.Interface.Meaning
import RpcForge.Json.Printer

/-!
# Types in a target language

What a schema means becomes a tree of types, in the same way for every target language, and the tree
is spelled in that language. In a union, members that are spelled alike count once, and `null` is
taken out: it only says that the whole may be absent.
-/

namespace RpcForge

open RpcForge.Json

/-- A type in a target language. -/
inductive TypeExpr where
  /-- A type of the language, by its name. -/
  | word (text : String)
  /-- The type of one value. -/
  | literal (v : Value)
  /-- A model, by its name. -/
  | model (name : String)
  /-- A fixed number of items. -/
  | tuple (members : List TypeExpr)
  /-- Different items in no order. -/
  | set (item : TypeExpr)
  /-- Items in order. -/
  | list (item : TypeExpr)
  /-- Values under text keys. -/
  | map (value : TypeExpr)
  /-- Any of several types. -/
  | union (members : List TypeExpr)
  /-- A type or `null`. -/
  | nullable (inner : TypeExpr)
deriving Inhabited

namespace TypeExpr

/-- The type for anything. -/
def anyWord : Language → String
  | .python => "Any"
  | .typeScript => "any"

/-- The type without parts of a kind. -/
def scalarWord : Language → Scalar → String
  | .python, .boolean => "bool"
  | .python, .integer => "int"
  | .python, .number => "float"
  | .python, .string => "str"
  | .python, .null => "None"
  | .typeScript, .boolean => "boolean"
  | .typeScript, .integer => "number"
  | .typeScript, .number => "number"
  | .typeScript, .string => "string"
  | .typeScript, .null => "null"

/-- The type of strings with a format. -/
def formatWord : Language → StringFormat → String
  | .typeScript, _ => scalarWord .typeScript .string
  | .python, .date => "datetime.date"
  | .python, .time => "datetime.time"
  | .python, .dateTime => "datetime.datetime"
  | .python, .duration => "datetime.timedelta"
  | .python, .uuid => "UUID"
  | .python, .uuid1 => "UUID1"
  | .python, .uuid3 => "UUID3"
  | .python, .uuid4 => "UUID4"
  | .python, .uuid5 => "UUID5"
  | .python, .binary => "bytes"

/-- The type of a constant: in Python the type of that value alone, in TypeScript the type without
parts that it belongs to. -/
def ofConst : Language → Value → TypeExpr
  | l, .null => .word (scalarWord l .null)
  | l, .array _ => .word (anyWord l)
  | l, .object _ => .word (anyWord l)
  | .python, v => .literal v
  | .typeScript, .bool _ => .word (scalarWord .typeScript .boolean)
  | .typeScript, .number _ => .word (scalarWord .typeScript .number)
  | .typeScript, .string _ => .word (scalarWord .typeScript .string)

/-- A constant in Python. -/
def literalText : Value → String
  | .bool true => "True"
  | .bool false => "False"
  | v => v.compact

mutual

/-- How a type is spelled in Python. -/
def python : TypeExpr → String
  | .word text => text
  | .literal v => "Literal[" ++ literalText v ++ "]"
  | .model name => name
  | .tuple [] => "tuple[()]"
  | .tuple (member :: members) =>
    "tuple[" ++ ", ".intercalate (pythonAll (member :: members)) ++ "]"
  | .set item => "set[" ++ python item ++ "]"
  | .list item => "list[" ++ python item ++ "]"
  | .map value => "dict[str, " ++ python value ++ "]"
  | .union members => "Union[" ++ ", ".intercalate (pythonAll members) ++ "]"
  | .nullable inner => "Optional[" ++ python inner ++ "]"

/-- How types are spelled in Python. -/
def pythonAll : List TypeExpr → List String
  | [] => []
  | member :: members => python member :: pythonAll members

end

/-- How a list of items is spelled in TypeScript: brackets behind the items would only belong to the
last member of a union. -/
def typeScriptList (item : String) : String :=
  if Text.hasChar item '|' then "Array<" ++ item ++ ">" else item ++ "[]"

/-- How values under text keys are spelled in TypeScript. -/
def typeScriptMap (value : String) : String :=
  if value = anyWord .typeScript then "object" else "Record<string, " ++ value ++ ">"

mutual

/-- How a type is spelled in TypeScript. -/
def typeScript : TypeExpr → String
  | .word text => text
  | .literal v => literalText v
  | .model name => name
  | .tuple members => "[" ++ ", ".intercalate (typeScriptAll members) ++ "]"
  | .set item => "Set<" ++ typeScript item ++ ">"
  | .list item => typeScriptList (typeScript item)
  | .map value => typeScriptMap (typeScript value)
  | .union members => " | ".intercalate (typeScriptAll members)
  | .nullable inner => typeScript inner ++ " | null"

/-- How types are spelled in TypeScript. -/
def typeScriptAll : List TypeExpr → List String
  | [] => []
  | member :: members => typeScript member :: typeScriptAll members

end

/-- How a type is spelled in a target language. -/
def spell : Language → TypeExpr → String
  | .python => python
  | .typeScript => typeScript

/-- The members of a union that are spelled otherwise than those `seen` before them. -/
def dedupe (l : Language) (seen : List String) : List TypeExpr → List TypeExpr
  | [] => []
  | t :: ts =>
    if seen.contains (spell l t) then dedupe l seen ts
    else t :: dedupe l (spell l t :: seen) ts

/-- Whether a member of a union is the literal `null`. -/
def isNullMember (l : Language) (member : Meaning × TypeExpr) : Bool :=
  member.1.isNull || spell l member.2 == scalarWord l .null

/-- The type of a union whose members have given meanings and types. -/
def ofUnion (l : Language) (members : List (Meaning × TypeExpr)) : TypeExpr :=
  let others := dedupe l [] ((members.filter (!isNullMember l ·)).map Prod.snd)
  match others, members.any (isNullMember l) with
  | [], true => .word (scalarWord l .null)
  | [], false => .word (anyWord l)
  | [t], false => t
  | [t], true => .nullable t
  | ts, false => .union ts
  | ts, true => .nullable (.union ts)

mutual

/-- The type of what has a meaning, in a target language. -/
def ofMeaning (l : Language) : Meaning → TypeExpr
  | .absent => .word (anyWord l)
  | .flag _ => .word (anyWord l)
  | .const v => ofConst l v
  | .scalar kind => .word (scalarWord l kind)
  | .formatted format => .word (formatWord l format)
  | .tuple members _ _ => .tuple (ofMeanings l members)
  | .list items true => .set (ofItem l items)
  | .list items false => .list (ofItem l items)
  | .object _ _ additional => .map (ofItem l additional)
  | .types members => ofUnion l (members.zip (ofMeanings l members))
  | .union _ branches => ofUnion l (branches.zip (ofMeanings l branches))
  | .ref pointer => .model (Meaning.modelName pointer)
termination_by structural m => m

/-- The type of a part, which is that for anything where nothing is said. -/
def ofItem (l : Language) : Option Meaning → TypeExpr
  | some m => ofMeaning l m
  | none => .word (anyWord l)
termination_by structural m => m

/-- The types of what has given meanings. -/
def ofMeanings (l : Language) : List Meaning → List TypeExpr
  | [] => []
  | m :: ms => ofMeaning l m :: ofMeanings l ms
termination_by structural ms => ms

end

/-- The type of what has a meaning, as it is spelled in a target language. -/
def typeOf (l : Language) (m : Meaning) : String :=
  spell l (ofMeaning l m)

end TypeExpr

end RpcForge

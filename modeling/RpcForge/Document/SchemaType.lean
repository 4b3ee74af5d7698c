import RpcForge.Document.Error

/-!
# Type names of a schema

The seven type names that JSON Schema knows. The set is closed: a document that names any other type
cannot be read.
-/

namespace RpcForge

/-- A type name of a schema. -/
inductive SchemaType where
  /-- The literal `null`. -/
  | null
  /-- Truth values. -/
  | boolean
  /-- Objects. -/
  | object
  /-- Arrays. -/
  | array
  /-- Numbers. -/
  | number
  /-- Strings. -/
  | string
  /-- Whole numbers. -/
  | integer
deriving DecidableEq, Repr

namespace SchemaType

/-- All type names. -/
def all : List SchemaType :=
  [.null, .boolean, .object, .array, .number, .string, .integer]

/-- How a type name is written. -/
def name : SchemaType → String
  | .null => "null"
  | .boolean => "boolean"
  | .object => "object"
  | .array => "array"
  | .number => "number"
  | .string => "string"
  | .integer => "integer"

/-- The type name that is written in a given way. -/
def ofName? (text : String) : Option SchemaType :=
  all.find? (·.name == text)

/-- The error for a text that is no type name. -/
def unknownName (text : String) : DocumentError :=
  .schema ("unknown JSON Schema type '" ++ text ++ "'") none

/-- The type name that is written in a given way, or the error for there being none. -/
def ofName (text : String) : Except DocumentError SchemaType :=
  match ofName? text with
  | some t => .ok t
  | none => .error (unknownName text)

end SchemaType

end RpcForge

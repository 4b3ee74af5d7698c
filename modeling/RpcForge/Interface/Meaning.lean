import RpcForge.Document.Schema.Basic
import RpcForge.Interface.StringFormat

/-!
# What a schema means

A schema is a bag of optional keywords, of which many may be there at once. For generated code it
has one meaning, chosen in a fixed order: a constant, then the types, then the first composition of
`allOf`, `anyOf` and `oneOf`, then a pointer to another schema. A schema with none of these means
nothing.
-/

namespace RpcForge

open RpcForge.Json

/-- A type without parts. -/
inductive Scalar where
  /-- Truth values. -/
  | boolean
  /-- Whole numbers. -/
  | integer
  /-- Numbers. -/
  | number
  /-- Strings. -/
  | string
  /-- The literal `null`. -/
  | null
deriving DecidableEq, Repr

/-- How the branches of a composition are combined. -/
inductive Combinator where
  /-- All of them hold. -/
  | all
  /-- Some of them hold. -/
  | any
  /-- One of them holds. -/
  | one
deriving DecidableEq, Repr

/-- What a schema means for generated code. -/
inductive Meaning where
  /-- Nothing is said. -/
  | absent
  /-- A truth value in place of a schema. -/
  | flag (b : Bool)
  /-- One value. -/
  | const (v : Value)
  /-- A type without parts. -/
  | scalar (kind : Scalar)
  /-- A string with a format that has a type of its own. -/
  | formatted (format : StringFormat)
  /-- An array whose items are alike. -/
  | list (items : Option Meaning) (distinct : Bool)
  /-- An array whose first items are told one by one. -/
  | tuple (members : List Meaning) (items : Option Meaning) (distinct : Bool)
  /-- An object. -/
  | object (properties : List (String × Meaning)) (required : List String)
      (additional : Option Meaning)
  /-- Any of several types. -/
  | types (members : List Meaning)
  /-- A composition. -/
  | union (combinator : Combinator) (branches : List Meaning)
  /-- Another schema. -/
  | ref (pointer : String)
deriving Inhabited

namespace Meaning

/-- Whether this is the literal `null` and nothing else. -/
def isNull : Meaning → Bool
  | .scalar .null => true
  | .const .null => true
  | _ => false

/-- The name of the model that a pointer leads to: the last segment of its path. -/
def modelName (pointer : String) : String :=
  (Text.pieces '/' pointer).getLast?.getD pointer

/-- What the places for schemas in a schema mean. -/
structure Parts where
  /-- What every item of an array is. -/
  items : Option Meaning
  /-- What the first items of an array are, one by one. -/
  members : Option (List Meaning)
  /-- What the properties of an object are. -/
  properties : List (String × Meaning)
  /-- What the other properties of an object are. -/
  additional : Option Meaning
  /-- The first composition, if there is one. -/
  composition : Option (Combinator × List Meaning)

/-- What a schema means if its type is a given one. -/
def ofType (k : Keywords) (parts : Parts) : SchemaType → Meaning
  | .array =>
    match parts.members with
    | some members => .tuple members parts.items (k.uniqueItems.getD false)
    | none => .list parts.items (k.uniqueItems.getD false)
  | .object => .object parts.properties (k.required.getD []).eraseDups parts.additional
  | .string =>
    match k.format.bind StringFormat.ofName? with
    | some format => .formatted format
    | none => .scalar .string
  | .boolean => .scalar .boolean
  | .integer => .scalar .integer
  | .number => .scalar .number
  | .null => .scalar .null

/-- What a list of types means: a single one stands for itself. -/
def ofTypes (k : Keywords) (parts : Parts) : List SchemaType → Meaning
  | [type] => ofType k parts type
  | several => .types (several.map (ofType k parts))

/-- The meaning of a schema with given keywords and parts. -/
def choose (k : Keywords) (parts : Parts) : Meaning :=
  match k.const, k.types, parts.composition, k.reference with
  | some v, _, _, _ => .const v
  | none, some keyword, _, _ => ofTypes k parts keyword.toList
  | none, none, some (combinator, branches), _ => .union combinator branches
  | none, none, none, some pointer => .ref pointer
  | none, none, none, none => .absent

mutual

/-- What a schema means. -/
def ofSchema : Schema → Meaning
  | ⟨keywords, items, prefixItems, properties, additionalProperties, allOf, anyOf, oneOf, _, _⟩ =>
    choose keywords
      { items := match items with
          | some (.each p) => some (ofPosition p)
          | _ => none
        members := match prefixItems, items with
          | some ps, _ => some (ofPositions ps)
          | none, some (.positional ps) => some (ofPositions ps)
          | _, _ => none
        properties := match properties with
          | some ps => ofNamed ps
          | none => []
        additional := match additionalProperties with
          | some p => some (ofPosition p)
          | none => none
        composition := match allOf, anyOf, oneOf with
          | some ps, _, _ => some (.all, ofPositions ps)
          | none, some ps, _ => some (.any, ofPositions ps)
          | none, none, some ps => some (.one, ofPositions ps)
          | none, none, none => none }
termination_by structural s => s

/-- What stands in a place for a schema. -/
def ofPosition : SchemaPosition → Meaning
  | .flag b => .flag b
  | .schema s => ofSchema s
termination_by structural p => p

/-- What stands in places for schemas. -/
def ofPositions : List SchemaPosition → List Meaning
  | [] => []
  | p :: ps => ofPosition p :: ofPositions ps
termination_by structural ps => ps

/-- What stands in places for schemas under names. -/
def ofNamed : List (String × SchemaPosition) → List (String × Meaning)
  | [] => []
  | (name, p) :: ps => (name, ofPosition p) :: ofNamed ps
termination_by structural ps => ps

end

mutual

/-- The names of the models that are referred to, in order and with repetitions. -/
def references : Meaning → List String
  | .ref pointer => [modelName pointer]
  | .list items _ => optionReferences items
  | .tuple members items _ => optionReferences items ++ listReferences members
  | .object properties _ additional => namedReferences properties ++ optionReferences additional
  | .types members => listReferences members
  | .union _ branches => listReferences branches
  | .absent => []
  | .flag _ => []
  | .const _ => []
  | .scalar _ => []
  | .formatted _ => []
termination_by structural m => m

/-- The names of the models that an optional part refers to. -/
def optionReferences : Option Meaning → List String
  | none => []
  | some m => references m
termination_by structural m => m

/-- The names of the models that a list refers to. -/
def listReferences : List Meaning → List String
  | [] => []
  | m :: ms => references m ++ listReferences ms
termination_by structural ms => ms

/-- The names of the models that properties refer to. -/
def namedReferences : List (String × Meaning) → List String
  | [] => []
  | (_, m) :: ms => references m ++ namedReferences ms
termination_by structural ms => ms

end

end Meaning

end RpcForge

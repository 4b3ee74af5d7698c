import RpcForge.Document.Schema.Basic

/-!
# Reading and writing schemas

A value of the right shape is read from the inside out: first the places for schemas that each
keyword holds, then the schema from them and from the keywords without schemas. A schema is written
with its keywords in the order in which the grammar declares them, and all others behind them.
-/

namespace RpcForge

open RpcForge.Json

namespace Schema

/-- How a keyword holds places for schemas. -/
inductive Form where
  /-- One place. -/
  | single
  /-- A list of places. -/
  | list
  /-- One place or a list of them. -/
  | singleOrList
  /-- Places under names. -/
  | named
deriving DecidableEq, Repr

/-- How the keyword under a key holds places for schemas, if it does. -/
def form? (key : String) : Option Form :=
  Entries.get? [("items", .singleOrList), ("prefixItems", .list), ("properties", .named),
    ("additionalProperties", .single), ("allOf", .list), ("anyOf", .list), ("oneOf", .list),
    ("definitions", .named), ("$defs", .named)] key

/-- The places for schemas that a keyword holds. -/
inductive Nested where
  /-- None. -/
  | none
  /-- One place. -/
  | one (position : SchemaPosition)
  /-- A list of places. -/
  | many (positions : List SchemaPosition)
  /-- Places under names. -/
  | named (positions : Entries SchemaPosition)

/-- The one place that a keyword holds. -/
def Nested.one? : Nested → Option SchemaPosition
  | .one p => some p
  | _ => Option.none

/-- The list of places that a keyword holds. -/
def Nested.many? : Nested → Option (List SchemaPosition)
  | .many ps => some ps
  | _ => Option.none

/-- The named places that a keyword holds. -/
def Nested.named? : Nested → Option (Entries SchemaPosition)
  | .named ps => some ps
  | _ => Option.none

/-- The keyword for items with the places that it holds. -/
def Nested.items? : Nested → Option (Items Schema)
  | .one p => some (.each p)
  | .many ps => some (.positional ps)
  | _ => Option.none

/-- The keyword for types. -/
def buildTypes : Value → Option TypeKeyword
  | .string s => (SchemaType.ofName? s).map .single
  | .array vs => some (.several (vs.filterMap fun v ↦ v.text?.bind SchemaType.ofName?))
  | _ => none

/-- The keywords that hold no schemas. -/
def buildKeywords (members : Entries Value) : Keywords where
  id := Members.text? members "$id"
  reference := Members.text? members "$ref"
  title := Members.text? members "title"
  description := Members.text? members "description"
  default := Entries.get? members "default"
  examples := Members.items? members "examples"
  types := (Entries.get? members "type").bind buildTypes
  enum := Members.items? members "enum"
  const := Entries.get? members "const"
  format := Members.text? members "format"
  uniqueItems := Members.flag? members "uniqueItems"
  required := Members.texts? members "required"
  others := Entries.besides members (Part.keys .schema)

/-- The schema with given members, among which those with places for schemas were read already. -/
def assemble (members : Entries Value) (nested : Entries Nested) : Schema where
  keywords := buildKeywords members
  items := (Entries.get? nested "items").bind Nested.items?
  prefixItems := (Entries.get? nested "prefixItems").bind Nested.many?
  properties := (Entries.get? nested "properties").bind Nested.named?
  additionalProperties := (Entries.get? nested "additionalProperties").bind Nested.one?
  allOf := (Entries.get? nested "allOf").bind Nested.many?
  anyOf := (Entries.get? nested "anyOf").bind Nested.many?
  oneOf := (Entries.get? nested "oneOf").bind Nested.many?
  definitions := (Entries.get? nested "definitions").bind Nested.named?
  defs := (Entries.get? nested "$defs").bind Nested.named?

mutual

/-- The place for a schema in a value of the right shape. -/
def buildPosition : Value → SchemaPosition
  | .bool b => .flag b
  | .object members => .schema (assemble members (buildNested members))
  | _ => .flag true

/-- The places for schemas in the items of an array. -/
def buildPositions : List Value → List SchemaPosition
  | [] => []
  | v :: vs => buildPosition v :: buildPositions vs

/-- The places for schemas in the members of an object. -/
def buildNamed : List (String × Value) → List (String × SchemaPosition)
  | [] => []
  | (key, v) :: rest => (key, buildPosition v) :: buildNamed rest

/-- The places for schemas that each keyword of a schema holds. -/
def buildNested : List (String × Value) → List (String × Nested)
  | [] => []
  | (key, v) :: rest =>
    (key, match form? key, v with
      | _, .null => .none
      | some .single, v => .one (buildPosition v)
      | some .list, .array vs => .many (buildPositions vs)
      | some .singleOrList, .array vs => .many (buildPositions vs)
      | some .singleOrList, v => .one (buildPosition v)
      | some .named, .object members => .named (buildNamed members)
      | _, _ => .none) :: buildNested rest

end

/-- The schema in a value of the right shape. -/
def build : Value → Schema
  | .object members => assemble members (buildNested members)
  | _ => {}

/-- Read a schema. -/
def ofValue (v : Value) : Except DocumentError Schema :=
  Part.decode (.record .schema) build v

/-- Read what stands in a place for a schema. -/
def positionOfValue (v : Value) : Except DocumentError SchemaPosition :=
  Part.decode (.whole .schemaPosition) buildPosition v

end Schema

/-- The keyword for types as it is written. -/
def TypeKeyword.toValue : TypeKeyword → Value
  | .single type => .string type.name
  | .several types => .ofStrings (types.map SchemaType.name)

namespace Schema

mutual

/-- A schema as an object. -/
def toValue : Schema → Value
  | ⟨k, items, prefixItems, properties, additionalProperties, allOf, anyOf, oneOf, definitions,
      defs⟩ =>
    .object <|
      Members.given "$id" .string k.id ++
      Members.given "$ref" .string k.reference ++
      Members.given "title" .string k.title ++
      Members.given "description" .string k.description ++
      Members.given "default" id k.default ++
      Members.given "examples" .array k.examples ++
      Members.given "type" TypeKeyword.toValue k.types ++
      Members.given "enum" .array k.enum ++
      Members.given "const" id k.const ++
      Members.given "format" .string k.format ++
      givenItems "items" items ++
      givenPositions "prefixItems" prefixItems ++
      Members.given "uniqueItems" .bool k.uniqueItems ++
      Members.given "required" .ofStrings k.required ++
      givenNamed "properties" properties ++
      givenPosition "additionalProperties" additionalProperties ++
      givenPositions "allOf" allOf ++
      givenPositions "anyOf" anyOf ++
      givenPositions "oneOf" oneOf ++
      givenNamed "definitions" definitions ++
      givenNamed "$defs" defs ++
      k.others
termination_by structural s => s

/-- The keyword for items, if there is one. -/
def givenItems (key : String) : Option (Items Schema) → Entries Value
  | none => []
  | some (.each p) => [(key, positionToValue p)]
  | some (.positional ps) => [(key, .array (positionsToValues ps))]
termination_by structural items => items

/-- A keyword with one place for a schema, if there is one. -/
def givenPosition (key : String) : Option SchemaPosition → Entries Value
  | none => []
  | some p => [(key, positionToValue p)]
termination_by structural p => p

/-- A keyword with a list of places for schemas, if there is one. -/
def givenPositions (key : String) : Option (List SchemaPosition) → Entries Value
  | none => []
  | some ps => [(key, .array (positionsToValues ps))]
termination_by structural ps => ps

/-- A keyword with named places for schemas, if there is one. -/
def givenNamed (key : String) : Option (List (String × SchemaPosition)) → Entries Value
  | none => []
  | some ps => [(key, .object (namedToMembers ps))]
termination_by structural ps => ps

/-- What stands in a place for a schema, as a value. -/
def positionToValue : SchemaPosition → Value
  | .flag b => .bool b
  | .schema s => s.toValue
termination_by structural p => p

/-- What stands in places for schemas, as values. -/
def positionsToValues : List SchemaPosition → List Value
  | [] => []
  | p :: ps => positionToValue p :: positionsToValues ps
termination_by structural ps => ps

/-- What stands in named places for schemas, as members. -/
def namedToMembers : List (String × SchemaPosition) → List (String × Value)
  | [] => []
  | (name, p) :: ps => (name, positionToValue p) :: namedToMembers ps
termination_by structural ps => ps

end

end Schema

end RpcForge

import RpcForge.Document.Reference

/-!
# Schemas

The keywords of JSON Schema that shape a generated type. Where a schema may stand, a truth value may
stand as well. All other keywords are kept as they are, so that a document can be written back.
-/

namespace RpcForge

open RpcForge.Json

/-- The keyword for types: one name or a list of them. -/
inductive TypeKeyword where
  /-- One name. -/
  | single (type : SchemaType)
  /-- A list of names. -/
  | several (types : List SchemaType)
deriving DecidableEq, Repr

/-- The type names of the keyword for types. -/
def TypeKeyword.toList : TypeKeyword → List SchemaType
  | .single type => [type]
  | .several types => types

/-- A place for a schema: a schema or a truth value. -/
inductive Position (σ : Type) where
  /-- A truth value. -/
  | flag (b : Bool)
  /-- A schema. -/
  | schema (s : σ)
deriving Repr

/-- The keyword for the items of an array: one place for all of them, or one for each. -/
inductive Items (σ : Type) where
  /-- What every item is. -/
  | each (position : Position σ)
  /-- What each item is, by its position. -/
  | positional (positions : List (Position σ))
deriving Repr

/-- The keywords of a schema that hold no schemas. -/
structure Keywords where
  /-- The identifier of the schema. -/
  id : Option String := none
  /-- Pointer to another schema. -/
  reference : Option String := none
  /-- A title. -/
  title : Option String := none
  /-- A description. -/
  description : Option String := none
  /-- The default value; `null` is one. -/
  default : Option Value := none
  /-- Examples. -/
  examples : Option (List Value) := none
  /-- The types. -/
  types : Option TypeKeyword := none
  /-- The values that are allowed. -/
  enum : Option (List Value) := none
  /-- The one value that is allowed; `null` is one. -/
  const : Option Value := none
  /-- The format of a string. -/
  format : Option String := none
  /-- Whether the items of an array differ. -/
  uniqueItems : Option Bool := none
  /-- The properties that have to be there. -/
  required : Option (List String) := none
  /-- Keywords without a field of their own. -/
  others : Entries Value := []
deriving Inhabited

/-- A schema. -/
structure Schema where
  /-- The keywords that hold no schemas. -/
  keywords : Keywords := {}
  /-- What the items of an array are. -/
  items : Option (Items Schema) := none
  /-- What the first items of an array are, one by one. -/
  prefixItems : Option (List (Position Schema)) := none
  /-- What the properties of an object are. -/
  properties : Option (List (String × Position Schema)) := none
  /-- What the other properties of an object are. -/
  additionalProperties : Option (Position Schema) := none
  /-- Schemas that all hold. -/
  allOf : Option (List (Position Schema)) := none
  /-- Schemas of which some hold. -/
  anyOf : Option (List (Position Schema)) := none
  /-- Schemas of which one holds. -/
  oneOf : Option (List (Position Schema)) := none
  /-- Schemas with names of their own. -/
  definitions : Option (List (String × Position Schema)) := none
  /-- Schemas with names of their own, under the newer keyword. -/
  defs : Option (List (String × Position Schema)) := none
deriving Inhabited

/-- A place for a schema. -/
abbrev SchemaPosition := Position Schema

namespace Schema

/-- The schema with one type. -/
def ofType (type : SchemaType) : Schema :=
  { keywords := { types := some (.single type) } }

/-- The schema with a list of types. -/
def ofTypes (types : List SchemaType) : Schema :=
  { keywords := { types := some (.several types) } }

/-- The schema that refers to a component. -/
def referenceTo (name : String) : Schema :=
  { keywords := { reference := some (Reference.schema name).pointer } }

/-- The schema of which some branch holds. -/
def ofAny (branches : List Schema) : Schema :=
  { anyOf := some (branches.map .schema) }

/-- The schema of which one branch holds. -/
def ofOne (branches : List Schema) : Schema :=
  { oneOf := some (branches.map .schema) }

/-- The schema of which all branches hold. -/
def ofAll (branches : List Schema) : Schema :=
  { allOf := some (branches.map .schema) }

/-- Change the keywords that hold no schemas. -/
def modifyKeywords (schema : Schema) (f : Keywords → Keywords) : Schema :=
  { schema with keywords := f schema.keywords }

/-- Set the type. -/
def withType (schema : Schema) (type : SchemaType) : Schema :=
  schema.modifyKeywords fun k ↦ { k with types := some (.single type) }

/-- Set the title. -/
def withTitle (schema : Schema) (title : String) : Schema :=
  schema.modifyKeywords fun k ↦ { k with title := some title }

/-- Set the description. -/
def withDescription (schema : Schema) (description : String) : Schema :=
  schema.modifyKeywords fun k ↦ { k with description := some description }

/-- Set the format. -/
def withFormat (schema : Schema) (format : String) : Schema :=
  schema.modifyKeywords fun k ↦ { k with format := some format }

/-- Set the one value that is allowed. -/
def withConst (schema : Schema) (v : Value) : Schema :=
  schema.modifyKeywords fun k ↦ { k with const := some v }

/-- Set the values that are allowed. -/
def withEnum (schema : Schema) (values : List Value) : Schema :=
  schema.modifyKeywords fun k ↦ { k with enum := some values }

/-- Set whether items differ. -/
def withUniqueItems (schema : Schema) (unique : Bool) : Schema :=
  schema.modifyKeywords fun k ↦ { k with uniqueItems := some unique }

/-- Add a property that has to be there. -/
def requireProperty (schema : Schema) (name : String) : Schema :=
  schema.modifyKeywords fun k ↦ { k with required := some (k.required.getD [] ++ [name]) }

/-- Set what every item is. -/
def withItems (schema item : Schema) : Schema :=
  { schema with items := some (.each (.schema item)) }

/-- Set what the first items are. -/
def withPrefixItems (schema : Schema) (items : List Schema) : Schema :=
  { schema with prefixItems := some (items.map .schema) }

/-- Put a property. -/
def withProperty (schema : Schema) (name : String) (property : Schema) : Schema :=
  { schema with
    properties := some (Entries.insert (schema.properties.getD []) name (.schema property)) }

/-- Set what other properties are. -/
def withAdditionalProperties (schema : Schema) (position : SchemaPosition) : Schema :=
  { schema with additionalProperties := some position }

/-- Put a schema with a name of its own. -/
def withDefinition (schema : Schema) (name : String) (definition : Schema) : Schema :=
  { schema with
    definitions := some (Entries.insert (schema.definitions.getD []) name (.schema definition)) }

/-- Whether a property has to be there. -/
def isRequired (schema : Schema) (property : String) : Bool :=
  (schema.keywords.required.getD []).contains property

/-- The schemas with names of their own, those under the older keyword first. -/
def nestedDefinitions (schema : Schema) : Entries SchemaPosition :=
  schema.definitions.getD [] ++ schema.defs.getD []

end Schema

end RpcForge

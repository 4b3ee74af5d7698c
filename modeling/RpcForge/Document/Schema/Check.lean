import RpcForge.Document.Schema.Basic

/-!
# Checking schemas

The rules that a schema obeys by itself, and the places in which further schemas are looked at. An
error inside a schema that lies in another one is put under the place that holds it.
-/

namespace RpcForge.Schema

/-- A pointer to another schema is not empty. -/
def checkReference (k : Keywords) : Check :=
  if k.reference = some "" then .error (.schema "$ref cannot be empty" none) else .pass

/-- A list of types is not empty, and its names differ. -/
def checkTypes (k : Keywords) : Check :=
  match k.types with
  | some (.several []) => .error (.schema "type list cannot be empty" none)
  | some (.several types) =>
    Wellformed.checkDistinct "type list" (types.map SchemaType.name)
  | _ => .pass

/-- The list of allowed values is not empty. -/
def checkEnum (k : Keywords) : Check :=
  match k.enum with
  | some [] => .error (.schema "enum must list at least one value" none)
  | _ => .pass

/-- The rules for the keywords that hold no schemas. -/
def checkKeywords (k : Keywords) : Check :=
  .first [checkReference k, checkTypes k, checkEnum k]

/-- A property has a name. -/
def checkPropertyName (name : String) : Check :=
  if name.isEmpty then .error (.schema "property name cannot be empty" none) else .pass

/-- A composition has branches. -/
def checkSomeBranch (keyword : String) (branches : List SchemaPosition) : Check :=
  if branches.isEmpty then .error (.schema (keyword ++ " must list at least one schema") none)
  else .pass

mutual

/-- A schema and all schemas in it obey the rules. -/
def check : Schema → Check
  | ⟨keywords, items, prefixItems, properties, additionalProperties, allOf, anyOf, oneOf,
      definitions, defs⟩ =>
    .first [checkKeywords keywords, checkItems items, checkPrefix prefixItems,
      checkGivenProperties properties, checkAdditional additionalProperties,
      checkBranches "allOf" allOf, checkBranches "anyOf" anyOf, checkBranches "oneOf" oneOf,
      checkGivenDefinitions definitions, checkGivenDefinitions defs]
termination_by structural s => s

/-- The items of an array obey the rules, if something is said about them. -/
def checkItems : Option (Items Schema) → Check
  | none => .pass
  | some (.each p) => (checkPosition p).under "items"
  | some (.positional ps) => checkPositions "items" 0 ps
termination_by structural items => items

/-- The first items of an array obey the rules, if something is said about them. -/
def checkPrefix : Option (List SchemaPosition) → Check
  | none => .pass
  | some ps => checkPositions "prefixItems" 0 ps
termination_by structural given => given

/-- Properties obey the rules, if some are given. -/
def checkGivenProperties : Option (List (String × SchemaPosition)) → Check
  | none => .pass
  | some ps => checkProperties ps
termination_by structural given => given

/-- Further properties obey the rules, if something is said about them. -/
def checkAdditional : Option SchemaPosition → Check
  | none => .pass
  | some p => (checkPosition p).under "additionalProperties"
termination_by structural given => given

/-- A composition has branches that obey the rules, if it is given. -/
def checkBranches (keyword : String) : Option (List SchemaPosition) → Check
  | none => .pass
  | some ps => .first [checkSomeBranch keyword ps, checkPositions keyword 0 ps]
termination_by structural given => given

/-- Definitions obey the rules, if some are given. -/
def checkGivenDefinitions : Option (List (String × SchemaPosition)) → Check
  | none => .pass
  | some ps => checkDefinitions ps
termination_by structural given => given

/-- What stands in a place for a schema obeys the rules. -/
def checkPosition : SchemaPosition → Check
  | .flag _ => .pass
  | .schema s => s.check
termination_by structural p => p

/-- What stands in places for schemas obeys the rules; the first place has the given position. -/
def checkPositions (keyword : String) (i : Nat) : List SchemaPosition → Check
  | [] => .pass
  | p :: ps =>
    .first [(checkPosition p).under (keyword ++ "[" ++ toString i ++ "]"),
      checkPositions keyword (i + 1) ps]
termination_by structural ps => ps

/-- Properties have names, and what stands in their places obeys the rules. -/
def checkProperties : List (String × SchemaPosition) → Check
  | [] => .pass
  | (name, p) :: ps =>
    .first [checkPropertyName name, (checkPosition p).under ("properties." ++ name),
      checkProperties ps]
termination_by structural ps => ps

/-- Definitions have well-formed names, and what stands in their places obeys the rules. -/
def checkDefinitions : List (String × SchemaPosition) → Check
  | [] => .pass
  | (name, p) :: ps =>
    .first [Wellformed.checkComponentKey name, (checkPosition p).under ("definitions." ++ name),
      checkDefinitions ps]
termination_by structural ps => ps

end

end RpcForge.Schema

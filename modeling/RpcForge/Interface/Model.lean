import RpcForge.Document.Components
import RpcForge.Interface.Meaning

/-!
# Models

The schemas with names, which become types of their own in generated code. Schemas that are defined
inside other schemas stand beside them under their own names; where a name is given twice, the first
schema has it.
-/

namespace RpcForge

open RpcForge.Json

/-- A schema with a name. -/
structure Model where
  /-- The name. -/
  name : String
  /-- A title. -/
  title : Option String := none
  /-- A description. -/
  description : Option String := none
  /-- The values that are allowed, if some are listed. -/
  options : Option (List Value) := none
  /-- What the schema means. -/
  meaning : Meaning

/-- How a model is written in generated code. -/
inductive ModelKind where
  /-- As a class with a field for each property. -/
  | record
  /-- As an enumeration of the values that are allowed. -/
  | enumeration
  /-- As another name for a type. -/
  | synonym
deriving DecidableEq, Repr

namespace Model

/-- The model of a schema under a name. -/
def ofSchema (name : String) (schema : Schema) : Model where
  name := name
  title := schema.keywords.title
  description := schema.keywords.description
  options := schema.keywords.enum.filter (!·.isEmpty)
  meaning := Meaning.ofSchema schema

/-- The title, or the name where there is none. -/
def displayTitle (model : Model) : String :=
  model.title.getD model.name

/-- How the model is written: allowed values make it an enumeration, and otherwise an object makes
it a class. -/
def kind (model : Model) : ModelKind :=
  match model.options, model.meaning with
  | some _, _ => .enumeration
  | none, .object _ _ _ => .record
  | none, _ => .synonym

end Model

/-- Models in order, no two of which have the same name. -/
structure Models where
  /-- The models. -/
  toList : List Model
  /-- Their names differ. -/
  distinct : (toList.map Model.name).Nodup

namespace Models

/-- No models. -/
def empty : Models := ⟨[], by simp⟩

instance : Inhabited Models := ⟨empty⟩

/-- The names, in order. -/
def names (models : Models) : List String :=
  models.toList.map Model.name

/-- Whether there is no model. -/
def isEmpty (models : Models) : Bool :=
  models.toList.isEmpty

/-- Whether some model has a name. -/
def contains (models : Models) (name : String) : Bool :=
  models.names.contains name

/-- The model with a name. -/
def get? (models : Models) (name : String) : Option Model :=
  models.toList.find? (·.name == name)

/-- The models of a kind, in order. -/
def ofKind (models : Models) (kind : ModelKind) : List Model :=
  models.toList.filter fun model ↦ model.kind == kind

/-- Add a model behind the others, unless its name is given already. -/
def add (models : Models) (model : Model) : Models :=
  if h : models.contains model.name then models
  else
    { toList := models.toList ++ [model]
      distinct := by
        have fresh : model.name ∉ models.toList.map Model.name := by
          simpa [contains, names] using h
        rw [List.map_append, List.nodup_append]
        refine ⟨models.distinct, by simp, fun a ha b hb ↦ ?_⟩
        rw [List.map_singleton, List.mem_singleton] at hb
        exact fun e ↦ fresh (hb ▸ e ▸ ha) }

mutual

/-- Add a schema under a name, and then the schemas that are defined in it. -/
def addSchema (models : Models) (name : String) : Schema → Models
  | ⟨keywords, items, prefixItems, properties, additionalProperties, allOf, anyOf, oneOf,
      definitions, defs⟩ =>
    let models := models.add (Model.ofSchema name ⟨keywords, items, prefixItems, properties,
      additionalProperties, allOf, anyOf, oneOf, definitions, defs⟩)
    let models := match definitions with
      | some ps => addDefinitions models ps
      | none => models
    match defs with
      | some ps => addDefinitions models ps
      | none => models
termination_by structural s => s

/-- Add what stands in a place under a name; a truth value adds nothing. -/
def addPosition (models : Models) (name : String) : SchemaPosition → Models
  | .flag _ => models
  | .schema s => addSchema models name s
termination_by structural p => p

/-- Add definitions in order. -/
def addDefinitions (models : Models) : List (String × SchemaPosition) → Models
  | [] => models
  | (name, p) :: ps => addDefinitions (addPosition models name p) ps
termination_by structural ps => ps

end

/-- The models of the components of a document. -/
def ofComponents (components : Option Components) : Models :=
  ((components.map Components.namedSchemas).getD []).foldl
    (fun models (name, schema) ↦ models.addSchema name schema) empty

/-- The class that a meaning refers to, if it refers to one. -/
def recordOf? (models : Models) : Meaning → Option Model
  | .ref pointer => (models.get? (Meaning.modelName pointer)).filter (·.kind == .record)
  | _ => none

end Models

end RpcForge

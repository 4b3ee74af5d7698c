import RpcForge.Client.Plan
import RpcForge.Interface.AliasOrder
import RpcForge.Package.PythonClient

/-!
# The models of a Python package

The module with the models, first as declarations and then as text: enumerations, then classes, then
aliases, and at last a call for each class, which looks up what its fields mention.
-/

namespace RpcForge.PythonModels

open RpcForge.Json
open RpcForge.Text (quote)

/-- A member of an enumeration. -/
structure Member where
  /-- The name. -/
  name : String
  /-- The value, as it is written. -/
  literal : String
deriving DecidableEq, Repr

/-- An enumeration. -/
structure EnumClass where
  /-- The name. -/
  name : String
  /-- The documentation. -/
  doc : String
  /-- The members. -/
  members : List Member

/-- A field of a class. -/
structure Field where
  /-- The name. -/
  name : String
  /-- The property, where it has another name. -/
  property : Option String
  /-- The type, as it is spelled. -/
  type : String
  /-- Whether the property has to be there. -/
  required : Bool
deriving DecidableEq, Repr

namespace Field

/-- The name that stands in a request. -/
def wireName (field : Field) : String :=
  field.property.getD field.name

end Field

/-- A class. -/
structure RecordClass where
  /-- The name. -/
  name : String
  /-- The documentation. -/
  doc : String
  /-- The fields. -/
  fields : List Field

/-- Another name for a type. -/
structure AliasDef where
  /-- The name. -/
  name : String
  /-- The type, as it is spelled. -/
  type : String
deriving DecidableEq, Repr

/-- The module with the models. -/
structure Module where
  /-- The title of the interface. -/
  title : String
  /-- The names that the module offers. -/
  exported : List String
  /-- The enumerations. -/
  enums : List EnumClass
  /-- The classes. -/
  records : List RecordClass
  /-- The aliases. -/
  aliases : List AliasDef

/-! ## Declarations -/

/-- A value without parts as it is written. -/
def literal? : Value → Option String
  | .null => some "None"
  | .bool true => some "True"
  | .bool false => some "False"
  | .number n => some n.render
  | .string s => some (quote s)
  | .array _ => none
  | .object _ => none

/-- The members of an enumeration of values: one for each value without parts. -/
def membersOf (values : List Value) : List Member :=
  let written := values.filterMap fun v ↦ (literal? v).map fun text ↦ (v, text)
  List.zipWith (fun name entry ↦ ⟨name, entry.2⟩)
    (Naming.unique (written.map fun entry ↦ Naming.enumMember entry.1)) written

/-- The enumeration of a model. -/
def enumOf (model : Model) : EnumClass where
  name := model.name
  doc := model.description.getD (model.displayTitle ++ " options.")
  members := membersOf (model.options.getD [])

/-- The field for a property. -/
def fieldOf (required : List String) (entry : String × Meaning) : Field :=
  let name := Naming.pythonIdentifier entry.1
  { name := name
    property := if name = entry.1 then none else some entry.1
    type := TypeExpr.typeOf .python entry.2
    required := required.contains entry.1 }

/-- Fields with those first whose properties have to be there; otherwise the order is kept. -/
def ordered (fields : List Field) : List Field :=
  fields.filter (·.required) ++ fields.filter (!·.required)

/-- The fields for what has a meaning. -/
def fieldsOf : Meaning → List Field
  | .object properties required _ => ordered (properties.map (fieldOf required))
  | _ => []

/-- The class of a model. -/
def recordOf (model : Model) : RecordClass where
  name := model.name
  doc := model.description.getD (model.displayTitle ++ " object.")
  fields := fieldsOf model.meaning

/-- The alias of a model. -/
def aliasOf (model : Model) : AliasDef where
  name := model.name
  type := TypeExpr.typeOf .python model.meaning

/-- The module with the models of a plan. -/
def moduleOf (plan : Plan) : Module :=
  let models := plan.interface.models
  { title := plan.interface.info.title
    exported := models.names
    enums := (models.ofKind .enumeration).map enumOf
    records := (models.ofKind .record).map recordOf
    aliases := (Models.aliasOrder (models.ofKind .synonym)).map aliasOf }

/-! ## Text -/

/-- An enumeration. -/
def enumCode (c : EnumClass) : List Code :=
  [.blank, .blank,
    .suite ("class " ++ c.name ++ "(Enum)")
      (Comment.docstring c.doc ++ (if c.members.isEmpty then [] else [.blank]) ++
        c.members.map fun member ↦ .line (member.name ++ " = " ++ member.literal))]

/-- A field. -/
def fieldText (field : Field) : String :=
  match field.required, field.property with
  | true, none => field.name ++ ": " ++ field.type
  | true, some wire => field.name ++ ": " ++ field.type ++ " = Field(alias=" ++ quote wire ++ ")"
  | false, none => field.name ++ ": " ++ PythonClient.optionalType field.type ++ " = None"
  | false, some wire =>
    field.name ++ ": " ++ PythonClient.optionalType field.type ++ " = Field(None, alias=" ++
      quote wire ++ ")"

/-- A class; where a field has another name than its property, either name may be used. -/
def recordCode (c : RecordClass) : List Code :=
  [.blank, .blank,
    .suite ("class " ++ c.name ++ "(BaseModel)")
      (Comment.docstring c.doc ++
        (if c.fields.any (·.property.isSome) then
          [.blank, .line "model_config = ConfigDict(populate_by_name=True)"] else []) ++
        (if c.fields.isEmpty then [] else [.blank]) ++
        c.fields.map fun field ↦ .line (fieldText field))]

/-- The aliases. -/
def aliasesCode (aliases : List AliasDef) : List Code :=
  (if aliases.isEmpty then [] else [.blank]) ++
    aliases.flatMap fun a ↦ [.blank, .line (a.name ++ " = " ++ a.type)]

/-- The calls that look up what the fields of classes mention. -/
def rebuildCode (records : List RecordClass) : List Code :=
  if records.isEmpty then []
  else [.blank, .blank] ++ records.map fun c ↦ .line (c.name ++ ".model_rebuild()")

/-- The imports. -/
def importCode : List Code :=
  [.line "from __future__ import annotations",
    .blank,
    .line "import datetime",
    .line "from enum import Enum",
    .line "from typing import *",
    .line "from uuid import UUID",
    .blank,
    .line "from pydantic import UUID1, UUID3, UUID4, UUID5, BaseModel, ConfigDict, Field",
    .blank]

/-- The module as code. -/
def moduleCode (m : Module) : List Code :=
  Comment.docstring (Comment.heading m.title "models") ++ importCode ++
    PythonClient.tupleCode "__all__" m.exported ++ m.enums.flatMap enumCode ++
    m.records.flatMap recordCode ++ aliasesCode m.aliases ++ rebuildCode m.records

/-- The module as text. -/
def render (m : Module) : String :=
  Code.render PythonClient.indentation (moduleCode m)

end RpcForge.PythonModels

import RpcForge.Package.TypeScriptClient

/-!
# The models of a TypeScript package

The source with the models, first as declarations and then as text. A class has its fields, a
constructor, and the two conversions between its objects and JSON, all in the same order of
properties.
-/

namespace RpcForge.TypeScriptModels

open RpcForge.Json
open RpcForge.Text (quote)

/-- A property of a class. -/
structure Field where
  /-- The name of the property, which is the key in JSON. -/
  property : String
  /-- The name of the field. -/
  name : String
  /-- The name of the parameter of the constructor. -/
  param : String
  /-- The type, as it is spelled. -/
  type : String
  /-- Whether the property has to be there. -/
  required : Bool
  /-- What the property means. -/
  meaning : Meaning

/-- A class. -/
structure RecordClass where
  /-- The name. -/
  name : String
  /-- The documentation. -/
  doc : String
  /-- The properties. -/
  fields : List Field

/-- An enumeration of strings and numbers. -/
structure EnumDef where
  /-- The name. -/
  name : String
  /-- The documentation. -/
  doc : String
  /-- The members with their values, as they are written. -/
  members : List (String × String)

/-- Another name for a type. -/
structure AliasDef where
  /-- The name. -/
  name : String
  /-- The documentation. -/
  doc : String
  /-- The type, as it is spelled. -/
  type : String

/-- What a model is written as. -/
inductive Declaration where
  /-- A class. -/
  | record (c : RecordClass)
  /-- An enumeration. -/
  | enumeration (e : EnumDef)
  /-- Another name for a type. -/
  | synonym (a : AliasDef)

/-- The name that a declaration exports. -/
def Declaration.name : Declaration → String
  | .record c => c.name
  | .enumeration e => e.name
  | .synonym a => a.name

/-- The source with the models. -/
structure Source where
  /-- The title of the interface. -/
  title : String
  /-- The classes for which there are conversions. -/
  models : Models
  /-- The declarations. -/
  declarations : List Declaration

/-! ## Declarations -/

/-- The fields for properties, in the order of the properties. -/
def rawFields (required : List String) (properties : List (String × Meaning)) : List Field :=
  List.zipWith
    (fun entry names ↦
      { property := entry.1
        name := names.1
        param := names.2
        type := TypeExpr.typeOf .typeScript entry.2
        required := required.contains entry.1
        meaning := entry.2 })
    properties
    ((Naming.unique (properties.map fun entry ↦ Naming.camel entry.1)).zip
      (Naming.unique (properties.map fun entry ↦ Naming.typeScriptIdentifier entry.1)))

/-- Fields with those first whose properties have to be there; otherwise the order is kept. -/
def ordered (fields : List Field) : List Field :=
  fields.filter (·.required) ++ fields.filter (!·.required)

/-- The fields for what has a meaning. -/
def fieldsOf : Meaning → List Field
  | .object properties required _ => ordered (rawFields required properties)
  | _ => []

/-- The class of a model. -/
def recordOf (model : Model) : RecordClass where
  name := model.name
  doc := model.description.getD (model.displayTitle ++ " object.")
  fields := fieldsOf model.meaning

/-- Another name for the type of a model. -/
def aliasOf (model : Model) : AliasDef where
  name := model.name
  doc := model.description.getD ""
  type := TypeExpr.typeOf .typeScript model.meaning

/-- Whether a value can be that of a member of an enumeration. -/
def isMemberValue : Value → Bool
  | .string _ => true
  | .number _ => true
  | _ => false

/-- The members for values. -/
def membersOf (values : List Value) : List (String × String) :=
  (Naming.unique (values.map Naming.enumMember)).zip (values.map Value.compact)

/-- The declaration for a model with allowed values: an enumeration if they all are strings and
numbers, and otherwise another name for the type. -/
def enumOf (model : Model) (values : List Value) : Declaration :=
  if values.all isMemberValue then
    .enumeration
      { name := model.name, doc := model.description.getD "", members := membersOf values }
  else .synonym (aliasOf model)

/-- What a model is written as. -/
def declarationOf (model : Model) : Declaration :=
  match model.kind with
  | .record => .record (recordOf model)
  | .enumeration => enumOf model (model.options.getD [])
  | .synonym => .synonym (aliasOf model)

/-- The source with the models of a plan. -/
def sourceOf (plan : Plan) : Source where
  title := plan.interface.info.title
  models := plan.interface.models
  declarations := plan.interface.models.toList.map declarationOf

/-! ## Text -/

/-- The expression that turns a value of what it means into what can be written as JSON: sets become
arrays. -/
def toJson (meaning : Meaning) (value : String) : String :=
  match meaning with
  | .list _ true => value ++ " == null ? " ++ value ++ " : Array.from(" ++ value ++ ")"
  | _ => value

/-- The raw JSON of a property. -/
def rawText (field : Field) : String :=
  "data[" ++ quote field.property ++ "]"

/-- The argument of the constructor for a property that is read from JSON. -/
def fromJsonText (models : Models) (field : Field) : String :=
  match TypeScriptClient.fromJson? models field.meaning (rawText field) with
  | some converted =>
    if field.required then converted
    else rawText field ++ " == null ? " ++ rawText field ++ " : " ++ converted
  | none => rawText field

/-- A name with a type, and with a mark between them if it may be left out. -/
def typedText (name : String) (field : Field) : String :=
  TypeScriptClient.argumentText ⟨name, field.type, field.required⟩

/-- A class. -/
def recordCode (models : Models) (c : RecordClass) : List Code :=
  Comment.block c.doc ++
    [.braced ("export class " ++ c.name)
      ((c.fields.map fun field ↦ .line (typedText field.name field ++ ";")) ++
        (if c.fields.isEmpty then [] else [.blank]) ++
        [.text "constructor(",
          .separated ", " (c.fields.map fun field ↦ typedText field.param field),
          .braced ")"
            (c.fields.map fun field ↦ .line ("this." ++ field.name ++ " = " ++ field.param ++ ";")),
          .blank,
          .braced "toJSON(): \x7b [key: string]: any \x7d"
            [.braced "return"
              (c.fields.map fun field ↦
                .line (quote field.property ++ ": " ++
                  toJson field.meaning ("this." ++ field.name) ++ ","))],
          .blank,
          .braced ("static fromJSON(data: any): " ++ c.name)
            [.line ("return new " ++ c.name ++ "("),
              .nested (c.fields.map fun field ↦ .line (fromJsonText models field ++ ",")),
              .line ");"]])]

/-- An enumeration. -/
def enumCode (e : EnumDef) : List Code :=
  Comment.block e.doc ++
    [.braced ("export enum " ++ e.name)
      (e.members.map fun (name, value) ↦ .line (name ++ " = " ++ value ++ ","))]

/-- Another name for a type. -/
def aliasCode (a : AliasDef) : List Code :=
  Comment.block a.doc ++ [.line ("export type " ++ a.name ++ " = " ++ a.type ++ ";")]

/-- A declaration. -/
def declarationCode (models : Models) : Declaration → List Code
  | .record c => recordCode models c
  | .enumeration e => enumCode e
  | .synonym a => aliasCode a

/-- The source as code. -/
def sourceCode (s : Source) : List Code :=
  Comment.block (Comment.heading s.title "models") ++
    s.declarations.flatMap fun d ↦ .blank :: declarationCode s.models d

/-- The source as text. -/
def render (s : Source) : String :=
  Code.render TypeScriptClient.indentation (sourceCode s)

end RpcForge.TypeScriptModels

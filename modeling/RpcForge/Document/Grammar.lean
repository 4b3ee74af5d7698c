import RpcForge.Document.SchemaType
import RpcForge.Json.Shape

/-!
# The grammar of a document

The records that a document is made of, with their fields in the order in which they are written,
and the parts that may be one of several things: a place for a schema is a schema or a truth value,
a method or a descriptor may stand as a reference, and some keywords have two forms.
-/

namespace RpcForge

open RpcForge.Json

/-- A record or a part of a document. -/
inductive Part where
  /-- The document. -/
  | document
  /-- What the document says about itself. -/
  | info
  /-- Whom to ask. -/
  | contact
  /-- Under which terms the interface is offered. -/
  | license
  /-- A server. -/
  | server
  /-- A variable in the address of a server. -/
  | serverVariable
  /-- A method. -/
  | method
  /-- A parameter or a result. -/
  | descriptor
  /-- What other parts refer to. -/
  | components
  /-- A schema. -/
  | schema
  /-- A reference to another part. -/
  | reference
  /-- A place for a schema, which may also hold a truth value. -/
  | schemaPosition
  /-- The keyword for the items of an array: one place for a schema, or a list of them. -/
  | items
  /-- The keyword for types: one type name, or a list of them. -/
  | typeNames
  /-- How parameters are sent. -/
  | parameterStructure
  /-- A method or a reference to one. -/
  | methodOrReference
  /-- A descriptor or a reference to one. -/
  | descriptorOrReference
deriving DecidableEq, Repr

namespace Part

/-- The title of a record. A part that stands for several things has the title of the one it is when
it is no reference. -/
def title : Part → String
  | .document => "OpenRpc"
  | .info => "Info"
  | .contact => "Contact"
  | .license => "License"
  | .server => "Server"
  | .serverVariable => "ServerVariable"
  | .method => "Method"
  | .methodOrReference => "Method"
  | .descriptor => "ContentDescriptor"
  | .descriptorOrReference => "ContentDescriptor"
  | .components => "Components"
  | .schema => "Schema"
  | .schemaPosition => "Schema"
  | .items => "Schema"
  | .typeNames => "Schema"
  | .reference => "Reference"
  | .parameterStructure => "Method"

/-- A field that has to be there. -/
private def required (key : String) (shape : Shape Part) : FieldShape Part :=
  ⟨key, .required, shape⟩

/-- A field that may be left out. -/
private def optional (key : String) (shape : Shape Part) : FieldShape Part :=
  ⟨key, .optional, shape⟩

/-- A field that may be left out and whose `null` counts as a value. -/
private def verbatim (key : String) : FieldShape Part :=
  ⟨key, .verbatim, .any⟩

/-- The fields of every record, in the order in which they are written. -/
def fields : Part → List (FieldShape Part)
  | .document =>
    [required "openrpc" .text, required "info" (.record .info),
      optional "servers" (.list (.record .server)),
      required "methods" (.list (.whole .methodOrReference)),
      optional "components" (.record .components), optional "externalDocs" .any,
      optional "$schema" .text]
  | .info =>
    [required "title" .text, optional "description" .text, optional "termsOfService" .text,
      optional "contact" (.record .contact), optional "license" (.record .license),
      required "version" .text]
  | .contact => [optional "name" .text, optional "url" .text, optional "email" .text]
  | .license => [required "name" .text, optional "url" .text]
  | .server =>
    [required "name" .text, required "url" .text, optional "summary" .text,
      optional "description" .text, optional "variables" (.map (.record .serverVariable))]
  | .serverVariable =>
    [optional "enum" (.list .text), required "default" .text, optional "description" .text]
  | .method =>
    [required "name" .text, optional "tags" (.list .any), optional "summary" .text,
      optional "description" .text, optional "externalDocs" .any,
      required "params" (.list (.whole .descriptorOrReference)),
      optional "result" (.whole .descriptorOrReference), optional "deprecated" .flag,
      optional "servers" (.list (.record .server)), optional "errors" (.list .any),
      optional "links" (.list .any), optional "paramStructure" (.whole .parameterStructure),
      optional "examples" (.list .any)]
  | .descriptor =>
    [required "name" .text, optional "summary" .text, optional "description" .text,
      optional "required" .flag, required "schema" (.whole .schemaPosition),
      optional "deprecated" .flag]
  | .components =>
    [optional "contentDescriptors" (.map (.record .descriptor)),
      optional "schemas" (.map (.record .schema)), optional "examples" (.map .any),
      optional "links" (.map .any), optional "errors" (.map .any),
      optional "examplePairingObjects" (.map .any), optional "tags" (.map .any)]
  | .schema =>
    [optional "$id" .text, optional "$ref" .text, optional "title" .text,
      optional "description" .text, verbatim "default", optional "examples" (.list .any),
      optional "type" (.whole .typeNames), optional "enum" (.list .any), verbatim "const",
      optional "format" .text, optional "items" (.whole .items),
      optional "prefixItems" (.list (.whole .schemaPosition)), optional "uniqueItems" .flag,
      optional "required" (.list .text), optional "properties" (.map (.whole .schemaPosition)),
      optional "additionalProperties" (.whole .schemaPosition),
      optional "allOf" (.list (.whole .schemaPosition)),
      optional "anyOf" (.list (.whole .schemaPosition)),
      optional "oneOf" (.list (.whole .schemaPosition)),
      optional "definitions" (.map (.whole .schemaPosition)),
      optional "$defs" (.map (.whole .schemaPosition))]
  | .reference => [required "$ref" .text]
  | _ => []

/-- The names for how parameters are sent. -/
def structureNames : List String :=
  ["by-name", "by-position", "either"]

/-- A place for a schema takes a schema or a truth value. -/
def resolvePosition : Value → Except ShapeError (Shape Part)
  | .bool _ => .ok .any
  | .object _ => .ok (.record .schema)
  | v => .error (.rule ("expected a schema object or boolean, found " ++ v.compact))

/-- What is wrong with one item of a list of type names. -/
def typeNameError? : Value → Option ShapeError
  | .string s =>
    if (SchemaType.ofName? s).isSome then none
    else some (.rule (SchemaType.unknownName s).message)
  | v => some (.rule ("type names must be strings, found " ++ v.compact))

/-- A keyword for types takes one type name or a list of them. -/
def resolveTypeNames : Value → Except ShapeError (Shape Part)
  | .string s =>
    match typeNameError? (.string s) with
    | some e => .error e
    | none => .ok .any
  | .array vs =>
    match vs.findSome? typeNameError? with
    | some e => .error e
    | none => .ok .any
  | v => .error (.rule ("`type` must be a string or an array of strings, found " ++ v.compact))

/-- How parameters are sent is given by a name. -/
def resolveStructure (v : Value) : Except ShapeError (Shape Part) :=
  (choiceName structureNames v).map fun _ ↦ .any

/-- A reference may also be written as an array of its one field. -/
def resolveReference : Value → Except ShapeError (Shape Part)
  | .array [] => .error (.tooShort 0 "Reference" 1)
  | .array (.string _ :: rest) =>
    if rest.isEmpty then .ok .any else .error (.tooLong (rest.length + 1))
  | .array (v :: _) => .error (.mismatch v.kind .text)
  | _ => .ok (.record .reference)

/-- Whether a value is an object with a key for a reference. -/
def isReference (v : Value) : Bool :=
  (v.get? "$ref").isSome

/-- The shape that a part has to have, given the value found in its place. -/
def resolve (part : Part) (v : Value) : Except ShapeError (Shape Part) :=
  match part with
  | .schemaPosition => resolvePosition v
  | .items =>
    match v with
    | .array _ => .ok (.list (.whole .schemaPosition))
    | v => resolvePosition v
  | .typeNames => resolveTypeNames v
  | .parameterStructure => resolveStructure v
  | .reference => resolveReference v
  | .methodOrReference => .ok (.record (if isReference v then .reference else .method))
  | .descriptorOrReference => .ok (.record (if isReference v then .reference else .descriptor))
  | part => .ok (.record part)

end Part

/-- The grammar of a document. Only references refuse further keys. -/
def documentGrammar : Grammar Part where
  title := Part.title
  fields := Part.fields
  isClosed := (· == .reference)
  resolve := Part.resolve

namespace Part

/-- The keys that a record declares. -/
def keys (part : Part) : List String :=
  documentGrammar.declaredKeys part

/-- Check that a value has a shape, and read it. -/
def decode {α : Type} (shape : Shape Part) (build : Value → α) (v : Value) :
    Except DocumentError α :=
  match documentGrammar.error? shape v with
  | some e => .error (.json e.message)
  | none => .ok (build v)

end Part

end RpcForge

import RpcForge.Document.Descriptor

/-!
# Components

What other parts of a document refer to: descriptors and schemas, and further things that are kept
as they are.
-/

namespace RpcForge

open RpcForge.Json

/-- What other parts of a document refer to. -/
structure Components where
  /-- Content descriptors. -/
  descriptors : Option (Entries Descriptor) := none
  /-- Schemas. -/
  schemas : Option (Entries Schema) := none
  /-- Examples. -/
  examples : Option (Entries Value) := none
  /-- Links. -/
  links : Option (Entries Value) := none
  /-- Errors. -/
  errors : Option (Entries Value) := none
  /-- Pairs of examples. -/
  examplePairings : Option (Entries Value) := none
  /-- Tags. -/
  tags : Option (Entries Value) := none
  /-- Further members. -/
  extensions : Extensions := .empty

namespace Components

/-- Put a descriptor. -/
def withDescriptor (components : Components) (name : String) (descriptor : Descriptor) :
    Components :=
  { components with
    descriptors := some (Entries.insert (components.descriptors.getD []) name descriptor) }

/-- Put a schema. -/
def withSchema (components : Components) (name : String) (schema : Schema) : Components :=
  { components with schemas := some (Entries.insert (components.schemas.getD []) name schema) }

/-- The schemas with their names, in order. -/
def namedSchemas (components : Components) : Entries Schema :=
  components.schemas.getD []

/-- The descriptor that a reference points to. -/
def resolveDescriptor (components : Components) (reference : Reference) :
    Except DocumentError Descriptor :=
  match reference.componentParts? with
  | some (kind, name) =>
    if kind = Reference.descriptorKind then
      match Entries.get? (components.descriptors.getD []) name with
      | some descriptor => .ok descriptor
      | none =>
        .error (.reference ("content descriptor '" ++ name ++ "' is not defined")
          reference.pointer)
    else
      .error (.reference "expected a reference to components.contentDescriptors"
        reference.pointer)
  | none =>
    .error (.reference "expected a reference to components.contentDescriptors" reference.pointer)

/-- A component has a well-formed name and obeys the rules of its kind. -/
def checkEntry {α : Type} (kind : String) (check : α → Check) (entry : String × α) : Check :=
  .first [Wellformed.checkComponentKey entry.1, (check entry.2).under (kind ++ "." ++ entry.1)]

/-- Descriptors and schemas have well-formed names and obey their rules, and further members are
extensions. -/
def check (components : Components) : Check :=
  .first [.all (checkEntry "contentDescriptors" Descriptor.check) (components.descriptors.getD []),
    .all (checkEntry "schemas" Schema.check) components.namedSchemas,
    components.extensions.check]

/-- The components with given members. -/
def build (members : Entries Value) : Components where
  descriptors := (Members.members? members "contentDescriptors").map
    (Members.mapValues fun v ↦ Descriptor.build (v.members?.getD []))
  schemas := (Members.members? members "schemas").map (Members.mapValues Schema.build)
  examples := Members.members? members "examples"
  links := Members.members? members "links"
  errors := Members.members? members "errors"
  examplePairings := Members.members? members "examplePairingObjects"
  tags := Members.members? members "tags"
  extensions := .ofMembers .components members

/-- Read components. -/
def ofValue (v : Value) : Except DocumentError Components :=
  Part.decode (.record .components) (fun v ↦ build (v.members?.getD [])) v

/-- Components as an object. -/
def toValue (components : Components) : Value :=
  .object <|
    Members.given "contentDescriptors"
      (fun ds ↦ .object (Members.mapValues Descriptor.toValue ds)) components.descriptors ++
    Members.given "schemas" (fun ss ↦ .object (Members.mapValues Schema.toValue ss))
      components.schemas ++
    Members.given "examples" .object components.examples ++
    Members.given "links" .object components.links ++
    Members.given "errors" .object components.errors ++
    Members.given "examplePairingObjects" .object components.examplePairings ++
    Members.given "tags" .object components.tags ++
    components.extensions.entries

end Components

end RpcForge

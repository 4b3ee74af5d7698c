import RpcForge.Document.Extensions
import RpcForge.Document.Schema.Check
import RpcForge.Document.Schema.Codec

/-!
# Content descriptors

What a parameter or a result is. A descriptor may stand as a reference to one of the components.
-/

namespace RpcForge

open RpcForge.Json

/-- A parameter or a result. -/
structure Descriptor where
  /-- The name; where parameters are sent by name it is the key. -/
  name : String
  /-- A summary. -/
  summary : Option String := none
  /-- A description. -/
  description : Option String := none
  /-- Whether the parameter has to be given. -/
  required : Option Bool := none
  /-- What the value looks like. -/
  schema : SchemaPosition
  /-- Whether the parameter should no longer be used. -/
  deprecated : Option Bool := none
  /-- Further members. -/
  extensions : Extensions := .empty

namespace Descriptor

/-- Whether the parameter has to be given; it does not unless the document says so. -/
def isRequired (descriptor : Descriptor) : Bool :=
  descriptor.required.getD false

/-- Whether the parameter should no longer be used. -/
def isDeprecated (descriptor : Descriptor) : Bool :=
  descriptor.deprecated.getD false

/-- Set the description. -/
def withDescription (descriptor : Descriptor) (description : String) : Descriptor :=
  { descriptor with description := some description }

/-- Say whether the parameter has to be given. -/
def withRequired (descriptor : Descriptor) (required : Bool) : Descriptor :=
  { descriptor with required := some required }

/-- The name is well-formed, the schema obeys its rules, and further members are extensions. -/
def check (descriptor : Descriptor) : Check :=
  .first [Wellformed.checkDescriptorName descriptor.name,
    (Schema.checkPosition descriptor.schema).under "schema", descriptor.extensions.check]

/-- The descriptor with given members. -/
def build (members : Entries Value) : Descriptor where
  name := Members.text members "name"
  summary := Members.text? members "summary"
  description := Members.text? members "description"
  required := Members.flag? members "required"
  schema := ((Entries.get? members "schema").map Schema.buildPosition).getD (.flag true)
  deprecated := Members.flag? members "deprecated"
  extensions := .ofMembers .descriptor members

/-- Read a descriptor. -/
def ofValue (v : Value) : Except DocumentError Descriptor :=
  Part.decode (.record .descriptor) (fun v ↦ build (v.members?.getD [])) v

/-- A descriptor as an object. -/
def toValue (descriptor : Descriptor) : Value :=
  .object <|
    Members.always "name" (.string descriptor.name) ++
    Members.given "summary" .string descriptor.summary ++
    Members.given "description" .string descriptor.description ++
    Members.given "required" .bool descriptor.required ++
    Members.always "schema" (Schema.positionToValue descriptor.schema) ++
    Members.given "deprecated" .bool descriptor.deprecated ++
    descriptor.extensions.entries

end Descriptor

/-- A thing that is written out, or a reference to it. -/
inductive OrReference (α : Type) where
  /-- The thing itself. -/
  | inline (a : α)
  /-- A reference to it. -/
  | reference (r : Reference)

namespace OrReference

variable {α : Type}

/-- The thing itself, where it is written out. -/
def inline? : OrReference α → Option α
  | .inline a => some a
  | .reference _ => none

/-- A rule for the thing or for the reference to it. -/
def check (checkInline : α → Check) : OrReference α → Check
  | .inline a => checkInline a
  | .reference r => r.check

/-- The thing or the reference in a value of the right shape. -/
def build (buildInline : Entries Value → α) (v : Value) : OrReference α :=
  if Part.isReference v then .reference (Reference.build v)
  else .inline (buildInline (v.members?.getD []))

/-- The thing or the reference as a value. -/
def toValue (inlineToValue : α → Value) : OrReference α → Value
  | .inline a => inlineToValue a
  | .reference r => r.toValue

end OrReference

/-- A descriptor or a reference to one. -/
abbrev DescriptorOrReference := OrReference Descriptor

namespace DescriptorOrReference

/-- The name of a descriptor, or the pointer of a reference. -/
def key : DescriptorOrReference → String
  | .inline descriptor => descriptor.name
  | .reference r => r.pointer

/-- Read a descriptor or a reference to one. -/
def ofValue (v : Value) : Except DocumentError DescriptorOrReference :=
  Part.decode (.whole .descriptorOrReference) (OrReference.build Descriptor.build) v

end DescriptorOrReference

end RpcForge

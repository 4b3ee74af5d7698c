import RpcForge.Document.Grammar
import RpcForge.Document.Wellformed
import RpcForge.Json.Members

/-!
# References

A pointer to another part of the document, usually to one of its components.
-/

namespace RpcForge

open RpcForge.Json

/-- A pointer to another part of the document. -/
structure Reference where
  /-- The text of the pointer. -/
  pointer : String
deriving DecidableEq, Repr, Inhabited

namespace Reference

/-- The beginning of every pointer to a component. -/
def componentStart : String := "#/components/"

/-- The kinds of components. -/
def componentKinds : List String :=
  ["schemas", "contentDescriptors", "examples", "links", "errors", "examplePairingObjects", "tags"]

/-- The kind of the components that are schemas. -/
def schemaKind : String := "schemas"

/-- The kind of the components that are content descriptors. -/
def descriptorKind : String := "contentDescriptors"

/-- A reference to the component of a kind under a name. -/
def component (kind name : String) : Reference :=
  ⟨componentStart ++ kind ++ "/" ++ name⟩

/-- A reference to a schema of the components. -/
def schema (name : String) : Reference :=
  component schemaKind name

/-- A reference to a content descriptor of the components. -/
def descriptor (name : String) : Reference :=
  component descriptorKind name

/-- Whether a reference points into the same document. -/
def isInternal (reference : Reference) : Bool :=
  Text.startsWith reference.pointer "#"

/-- Kind and name of the component that a reference points to. Pointers of any other form, and those
with an empty kind or name, have neither. -/
def componentParts? (reference : Reference) : Option (String × String) := do
  let path ← Text.stripPrefix? componentStart reference.pointer
  let (kind, name) ← Text.cut? '/' path
  if kind.isEmpty || name.isEmpty then none else some (kind, name)

/-- The last segment of a pointer. -/
def targetOf (pointer : String) : String :=
  Text.afterLast '/' pointer

/-- The name of what a reference points to. -/
def target (reference : Reference) : String :=
  targetOf reference.pointer

/-- A reference is not empty; one to elsewhere is an address, one to a component has a known kind
and a well-formed name, and any other one begins with `#/`. -/
def check (reference : Reference) : Check :=
  if reference.pointer.isEmpty then .broken "Reference string cannot be empty"
  else if !reference.isInternal then Wellformed.checkUrl reference.pointer
  else match reference.componentParts? with
    | some (kind, name) =>
      if !componentKinds.contains kind then
        .broken ("Invalid component type in reference: " ++ kind)
      else Wellformed.checkComponentKey name
    | none =>
      if Text.startsWith reference.pointer "#/" then .pass
      else .broken ("Invalid internal reference format: " ++ reference.pointer)

/-- The reference in a value of the right shape. -/
def build : Value → Reference
  | .object members => ⟨Members.text members "$ref"⟩
  | .array (.string s :: _) => ⟨s⟩
  | _ => ⟨""⟩

/-- Read a reference. -/
def ofValue (v : Value) : Except DocumentError Reference :=
  Part.decode (.whole .reference) build v

/-- A reference as an object. -/
def toValue (reference : Reference) : Value :=
  .object (Members.always "$ref" (.string reference.pointer))

end Reference

end RpcForge

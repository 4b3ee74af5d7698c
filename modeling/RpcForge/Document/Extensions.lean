import RpcForge.Document.Grammar
import RpcForge.Document.Wellformed
import RpcForge.Json.Members

/-!
# Extensions

The members of a record beside its declared fields. Their keys have to begin with `x-` and go on
after it. A document may be read with other keys, and then it is not valid.
-/

namespace RpcForge

open RpcForge.Json

/-- Members beside the declared fields, in order. -/
structure Extensions where
  /-- The members. -/
  entries : Entries Value
deriving Inhabited, Repr

namespace Extensions

/-- No members. -/
def empty : Extensions := ⟨[]⟩

/-- An extension key begins with `x-` and goes on after it. -/
def checkKey (key : String) : Check :=
  if !Text.startsWith key "x-" then
    .broken ("Unknown field '" ++ key ++ "' (extension keys must start with 'x-')")
  else if key == "x-" then
    .broken ("Extension key must have content after 'x-': " ++ key)
  else .pass

/-- Put a value under an extension key. -/
def insert (extensions : Extensions) (key : String) (v : Value) :
    Except DocumentError Extensions := do
  checkKey key
  return ⟨Entries.insert extensions.entries key v⟩

/-- The value under a key. -/
def get? (extensions : Extensions) (key : String) : Option Value :=
  Entries.get? extensions.entries key

/-- Whether a key has a value. -/
def contains (extensions : Extensions) (key : String) : Bool :=
  Entries.contains extensions.entries key

/-- The keys, in order. -/
def keys (extensions : Extensions) : List String :=
  Entries.keys extensions.entries

/-- How many members there are. -/
def size (extensions : Extensions) : Nat :=
  extensions.entries.length

/-- All keys are extension keys. -/
def check (extensions : Extensions) : Check :=
  .all checkKey extensions.keys

/-- The members of a record beside its declared fields. -/
def ofMembers (part : Part) (members : Entries Value) : Extensions :=
  ⟨Entries.besides members part.keys⟩

/-- Any object as extensions. -/
def ofValue (v : Value) : Except DocumentError Extensions :=
  Part.decode (.map .any) (fun v ↦ ⟨v.members?.getD []⟩) v

/-- Extensions as an object. -/
def toValue (extensions : Extensions) : Value :=
  .object extensions.entries

end Extensions

end RpcForge

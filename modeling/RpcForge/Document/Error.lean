/-!
# Errors of a document

What can be wrong with an API document, and where. An error that is found inside a part of a
document is put under the place of that part, which makes every error one about the place.
-/

namespace RpcForge

/-- What is wrong with a document. -/
inductive DocumentError where
  /-- A constraint is broken, at a place if that is known. -/
  | validation (message : String) (path : Option String)
  /-- The text is not JSON, or its value has another shape. -/
  | json (message : String)
  /-- A reference leads nowhere. -/
  | reference (message pointer : String)
  /-- A field that has to be filled is empty. -/
  | missingField (field : String)
  /-- A field has a value that it must not have. -/
  | invalidField (field message : String)
  /-- Two things that have to differ have the same key. -/
  | duplicateKey (key context : String)
  /-- A text is no address. -/
  | invalidUrl (url : String)
  /-- A text is no mail address. -/
  | invalidEmail (email : String)
  /-- The document has a version of the format that is not supported. -/
  | unsupportedVersion (version : String)
  /-- A schema uses its keywords in a way that has no meaning, at a place if that is known. -/
  | schema (message : String) (path : Option String)
deriving DecidableEq, Repr

namespace DocumentError

/-- The message of an error. -/
def message : DocumentError → String
  | .validation message _ => "Validation error: " ++ message
  | .json message => "JSON error: " ++ message
  | .reference message _ => "Reference resolution error: " ++ message
  | .missingField field => "Missing required field: " ++ field
  | .invalidField field message => "Invalid field value for '" ++ field ++ "': " ++ message
  | .duplicateKey key context => "Duplicate key '" ++ key ++ "' found in " ++ context
  | .invalidUrl url => "Invalid URL format: " ++ url
  | .invalidEmail email => "Invalid email format: " ++ email
  | .unsupportedVersion version => "Unsupported OpenRPC version: " ++ version
  | .schema message _ => "JSON Schema error: " ++ message

/-- The place or the reference that an error is about. -/
def path? : DocumentError → Option String
  | .validation _ path => path
  | .reference _ pointer => some pointer
  | .schema _ path => path
  | _ => none

/-- The error as one about a part of what lies at `parent`. A broken constraint keeps its own words
and has its place extended; any other error is quoted as a broken constraint at `parent`. -/
def under (parent : String) : DocumentError → DocumentError
  | .validation message (some path) => .validation message (some (parent ++ "." ++ path))
  | .validation message none => .validation message (some parent)
  | other => .validation other.message (some parent)

end DocumentError

/-- The outcome of checking something: nothing, or what is wrong with it. -/
abbrev Check := Except DocumentError Unit

namespace Check

/-- The check passes. -/
def pass : Check := .ok ()

/-- A check whose error is one about a part of what lies at `parent`. -/
def under (parent : String) (check : Check) : Check :=
  check.mapError (·.under parent)

/-- The check fails with a broken constraint whose place is not known yet. -/
def broken (message : String) : Check :=
  .error (.validation message none)

/-- Check an optional thing, if it is there. -/
def optional {α : Type} (check : α → Check) : Option α → Check
  | some a => check a
  | none => pass

/-- The first of several checks that fails. -/
def first : List Check → Check
  | [] => pass
  | .ok () :: checks => first checks
  | .error e :: _ => .error e

/-- Check things in order. -/
def all {α : Type} (check : α → Check) (things : List α) : Check :=
  first (things.map check)

/-- Check things in order, each as a part that is named by a keyword and its position. -/
def indexed {α : Type} (keyword : String) (check : α → Check) (things : List α) : Check :=
  first (things.mapIdx fun i a ↦ (check a).under (keyword ++ "[" ++ toString i ++ "]"))

end Check

end RpcForge

import RpcForge.Document.Error

/-!
# Errors of generation

Why no client can be generated for a document that can be read.
-/

namespace RpcForge

/-- Why no client can be generated. -/
inductive GenerationError where
  /-- The document is not valid. -/
  | document (error : DocumentError)
  /-- Two members of a group have the same name. -/
  | nameCollision (group name message : String)
  /-- A reference leads nowhere. -/
  | unresolvedReference (reference message : String)
  /-- The document uses something that is not supported. -/
  | unsupported (message : String)
  /-- A description of the package could not be written. -/
  | manifest (file message : String)
deriving DecidableEq, Repr

namespace GenerationError

/-- The message of an error. -/
def message : GenerationError → String
  | .document error => "Invalid OpenRPC document: " ++ error.message
  | .nameCollision group name message =>
    "Name collision in group '" ++ group ++ "' for '" ++ name ++ "': " ++ message
  | .unresolvedReference reference message =>
    "Unresolved reference '" ++ reference ++ "': " ++ message
  | .unsupported message => "Unsupported OpenRPC feature: " ++ message
  | .manifest file message => "Failed to serialize " ++ file ++ ": " ++ message

end GenerationError

end RpcForge

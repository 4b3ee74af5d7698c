import RpcForge.Document.Basic
import RpcForge.Run.Error

/-!
# Loading documents

A document is read from a file as a plain value first, so that of a repeated key the last value
counts, and then as a document, which has to be valid.
-/

namespace RpcForge

/-- Whether an input names a server to ask and not a file. -/
def isRemote (input : String) : Bool :=
  Text.startsWith input "http://" || Text.startsWith input "https://"

namespace Document

/-- The document that a text holds, where `input` names it in messages. -/
def parse (input text : String) : Except RunError Document := do
  let v ← (Json.Value.parse text).mapError fun e ↦ .parse input e.message
  (ofValue v).mapError fun e ↦ .parse input e.message

/-- The valid document that a text holds. -/
def load (input text : String) : Except RunError Document := do
  let document ← parse input text
  document.check.mapError .invalid
  return document

/-- The valid document in a file of a tree. No server is asked. -/
def loadFrom (tree : FileTree) (input : String) : Except RunError Document :=
  if isRemote input then .error (.discovery input "requests are not supported")
  else do
    let text ← (tree.read input).mapError (.unreadable input)
    load input text

end Document

end RpcForge

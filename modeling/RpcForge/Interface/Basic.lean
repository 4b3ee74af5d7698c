import RpcForge.Document.Basic
import RpcForge.Interface.Model
import RpcForge.Interface.Operation

/-!
# Interfaces

What clients are generated from: a valid document with its references resolved, its schemas given a
meaning, and defaults in place of what it leaves out. Every model that is referred to is defined.
-/

namespace RpcForge

/-- What a package says about the interface as a whole. -/
structure InterfaceInfo where
  /-- The title. -/
  title : String
  /-- The version. -/
  version : String
  /-- A description. -/
  description : Option String := none
  /-- Whom to ask. -/
  contactName : String
  /-- Where to ask. -/
  contactEmail : String
  /-- The terms under which the interface is offered. -/
  license : Option String := none

namespace InterfaceInfo

/-- What stands in place of a contact that the document leaves out. -/
def notProvided : String := "Not Provided"

/-- What a package says about the interface of a document. -/
def ofInfo (info : Info) : InterfaceInfo where
  title := info.title
  version := info.version
  description := info.description
  contactName := (info.contact.bind Contact.name).getD notProvided
  contactEmail := (info.contact.bind Contact.email).getD notProvided
  license := info.license.map License.name

end InterfaceInfo

/-- A server by its name and its address. -/
structure Endpoint where
  /-- The name. -/
  name : String
  /-- The address, without placeholders for variables. -/
  url : String
deriving DecidableEq, Repr, Inhabited

/-- What clients are generated from. -/
structure Interface where
  /-- What a package says about the interface as a whole. -/
  info : InterfaceInfo
  /-- Where the interface is offered. -/
  endpoints : List Endpoint
  /-- What can be called. -/
  operations : List Operation
  /-- The models. -/
  models : Models

namespace Interface

/-- The meanings in an operation, each with the place to name in an error. -/
def operationPlaces (operation : Operation) : List (String × Meaning) :=
  (operation.params ++ [operation.result]).map fun param ↦
    (operation.name ++ "." ++ param.name, param.meaning)

/-- All meanings in an interface: those of its operations, and then those of its models. -/
def places (interface : Interface) : List (String × Meaning) :=
  interface.operations.flatMap operationPlaces ++
    interface.models.toList.map fun model ↦ ("schema " ++ model.name, model.meaning)

/-- The first name that a meaning refers to although no model has it. -/
def undefinedIn? (models : Models) (meaning : Meaning) : Option String :=
  meaning.references.find? fun name ↦ !models.contains name

/-- The error for a place that refers to a model which is not there. -/
def undefinedError (place name : String) : GenerationError :=
  .unresolvedReference name ("schema '" ++ name ++ "' used by " ++ place ++ " is not defined")

/-- Every model that is referred to is defined. -/
def checkReferences (interface : Interface) : Except GenerationError Unit :=
  match interface.places.findSome? fun (place, meaning) ↦
      (undefinedIn? interface.models meaning).map (undefinedError place) with
  | some e => .error e
  | none => .ok ()

/-- The interface that a document describes. The document is checked first, then its methods are
resolved in order, and at last the models that are referred to are looked up. -/
def ofDocument (document : Document) : Except GenerationError Interface := do
  document.check.mapError .document
  let operations ← document.methods.mapM (Operation.ofEntry document.components)
  let interface : Interface := {
    info := .ofInfo document.info
    endpoints := document.effectiveServers.map fun server ↦ ⟨server.name, server.resolveUrl⟩
    operations := operations
    models := .ofComponents document.components }
  interface.checkReferences
  return interface

end Interface

end RpcForge

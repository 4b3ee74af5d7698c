import RpcForge.Document.Method
import RpcForge.Document.Components
import RpcForge.Interface.Error
import RpcForge.Interface.Meaning

/-!
# Operations

A method of a document with everything in place that it refers to: what a generated client can call.
-/

namespace RpcForge

/-- A parameter or a result of an operation. -/
structure Parameter where
  /-- The name that is sent. -/
  name : String
  /-- What the value is. -/
  meaning : Meaning
  /-- Whether the parameter has to be given. -/
  required : Bool
  /-- A description. -/
  description : Option String := none
deriving Inhabited

namespace Parameter

/-- The parameter that a descriptor describes. -/
def ofDescriptor (descriptor : Descriptor) : Parameter where
  name := descriptor.name
  meaning := Meaning.ofPosition descriptor.schema
  required := descriptor.isRequired
  description := descriptor.description

/-- The result of a method that has none. -/
def nothing : Parameter where
  name := "result"
  meaning := .scalar .null
  required := true

end Parameter

/-- How the parameters of an operation travel. -/
inductive Passing where
  /-- As an array in the order of the document. -/
  | byPosition
  /-- As an object with their names as keys. -/
  | byName
deriving DecidableEq, Repr, Inhabited

/-- How parameters travel where a document allows a choice: by position. -/
def Passing.ofStructure : ParameterStructure → Passing
  | .byName => .byName
  | .byPosition => .byPosition
  | .either => .byPosition

/-- What a generated client can call. -/
structure Operation where
  /-- The name that is sent. -/
  name : String
  /-- A summary. -/
  summary : Option String := none
  /-- A description. -/
  description : Option String := none
  /-- The parameters in the order of the document. -/
  params : List Parameter := []
  /-- The result. -/
  result : Parameter := .nothing
  /-- How the parameters travel. -/
  passing : Passing := .byPosition
  /-- Whether the operation should no longer be used. -/
  deprecated : Bool := false
deriving Inhabited

namespace Operation

/-- The description, or the summary where there is none. -/
def doc? (operation : Operation) : Option String :=
  operation.description.or operation.summary

/-- The parameters with those first that have to be given; otherwise the order is kept. -/
def orderedParams (operation : Operation) : List Parameter :=
  operation.params.filter (·.required) ++ operation.params.filter (!·.required)

/-- Whether the operation returns nothing. -/
def returnsNothing (operation : Operation) : Bool :=
  operation.result.meaning.isNull

/-- The descriptor itself, or the one of the components that a reference points to. -/
def resolve (components : Option Components) :
    DescriptorOrReference → Except GenerationError Descriptor
  | .inline descriptor => .ok descriptor
  | .reference r =>
    match components with
    | none => .error (.unresolvedReference r.pointer "document has no components")
    | some components =>
      (components.resolveDescriptor r).mapError fun e ↦ .unresolvedReference r.pointer e.message

/-- The parameter that a descriptor, or the one referred to, describes. -/
def resolveParameter (components : Option Components) (d : DescriptorOrReference) :
    Except GenerationError Parameter :=
  (resolve components d).map .ofDescriptor

/-- The result of a method, which is nothing where it has none. -/
def resolveResult (components : Option Components) :
    Option DescriptorOrReference → Except GenerationError Parameter
  | some d => resolveParameter components d
  | none => .ok .nothing

/-- The operation of a method that is written out. Its parameters are resolved in order, and then
its result. -/
def ofMethod (components : Option Components) (method : Method) :
    Except GenerationError Operation := do
  let params ← method.params.mapM (resolveParameter components)
  let result ← resolveResult components method.result
  return {
    name := method.name
    summary := method.summary
    description := method.description
    params := params
    result := result
    passing := .ofStructure method.parameterStructure
    deprecated := method.isDeprecated }

/-- The operation of an entry of the list of methods. A method that is itself a reference has
none. -/
def ofEntry (components : Option Components) :
    MethodOrReference → Except GenerationError Operation
  | .inline method => ofMethod components method
  | .reference r =>
    .error (.unsupported ("method references are not supported (" ++ r.pointer ++ ")"))

end Operation

end RpcForge

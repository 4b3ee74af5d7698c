import RpcForge.Client.TypeExpr
import RpcForge.Interface.Operation
import RpcForge.Naming

/-!
# Calls

What a generated function takes and what it sends. The function takes the parameters that have to be
given before the others; it sends them in the order of the document, or under their own names.
-/

namespace RpcForge

/-- A parameter of a generated function. -/
structure Argument where
  /-- The name in the target language. -/
  name : String
  /-- The type, as it is spelled in the target language. -/
  type : String
  /-- Whether it has to be given. -/
  required : Bool
deriving DecidableEq, Repr, Inhabited

/-- The parameter of a generated function for one of an operation. -/
def Argument.ofParameter (l : Language) (identifier : String → String) (param : Parameter) :
    Argument where
  name := identifier param.name
  type := TypeExpr.typeOf l param.meaning
  required := param.required

/-- What a generated function sends. -/
inductive Payload where
  /-- Arguments in order. -/
  | array (arguments : List String)
  /-- Arguments under keys. -/
  | object (members : List (String × String))
deriving DecidableEq, Repr

/-- What the function for an operation sends: every parameter once, in the order of the document. -/
def Payload.ofOperation (identifier : String → String) (operation : Operation) : Payload :=
  match operation.passing with
  | .byPosition => .array (operation.params.map fun param ↦ identifier param.name)
  | .byName => .object (operation.params.map fun param ↦ (param.name, identifier param.name))

/-- What a generated class holds for a group below it: the name of the member and the class. -/
structure SubgroupMember where
  /-- The name of the member. -/
  name : String
  /-- The class of the group. -/
  className : String
deriving DecidableEq, Repr

/-- The documentation of the function for an operation; a note stands behind it if the operation
should no longer be used. -/
def Operation.docWith (note : String) (operation : Operation) : String :=
  let doc := operation.doc?.getD ""
  if operation.deprecated then Text.trimStart (doc ++ "\n\n" ++ note) else doc

end RpcForge

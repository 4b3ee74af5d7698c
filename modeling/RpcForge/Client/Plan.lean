import RpcForge.Client.Choice
import RpcForge.Interface.Basic
import RpcForge.Interface.Group

/-!
# Plans

Everything that a client package is written from: the interface, its operations as a tree of groups,
the transports, and the address to use by default.
-/

namespace RpcForge

/-- Everything that a client package is written from. -/
structure Plan where
  /-- The interface. -/
  interface : Interface
  /-- The operations as a tree. -/
  root : Group
  /-- The transports to write clients for. -/
  transports : List Transport := [.http]
  /-- The address to use by default in place of that of the first server. -/
  clientUrl : Option String := none

namespace Plan

/-- The name of the client. -/
def nameOf (interface : Interface) : String :=
  Naming.pascal interface.info.title

/-- The plan for an interface, with no choices made. -/
def ofInterface (interface : Interface) : Except GenerationError Plan :=
  (Group.ofOperations (nameOf interface) interface.operations).map fun root ↦
    { interface := interface, root := root }

/-- The plan for a document, with no choices made. -/
def ofDocument (document : Document) : Except GenerationError Plan :=
  (Interface.ofDocument document).bind ofInterface

/-- Choose the transports; an empty choice is none. -/
def withTransports (plan : Plan) (transports : List Transport) : Plan :=
  if transports.isEmpty then plan else { plan with transports := transports }

/-- Choose the address to use by default. -/
def withClientUrl (plan : Plan) (url : String) : Plan :=
  { plan with clientUrl := some url }

/-- The name of the client, like `MathApi`. -/
def clientName (plan : Plan) : String :=
  nameOf plan.interface

/-- The name of the package and of its directory, like `math_api_client`. -/
def packageName (plan : Plan) : String :=
  Naming.snake plan.interface.info.title ++ "_client"

/-- The name under which the package is published, like `math-api-client`. -/
def distributionName (plan : Plan) : String :=
  String.ofList (plan.packageName.toList.map fun c ↦ if c = '_' then '-' else c)

/-- Whether there are models. -/
def hasModels (plan : Plan) : Bool :=
  !plan.interface.models.isEmpty

/-- All groups of operations but the root, each before those that it holds. -/
def groups (plan : Plan) : List Group :=
  plan.root.descendants.filter (!·.isRoot)

/-- The constants for the servers, each with its address. -/
def serverConstants (plan : Plan) : List (String × String) :=
  (Naming.unique (plan.interface.endpoints.map fun e ↦ Naming.shouty e.name)).zip
    (plan.interface.endpoints.map Endpoint.url)

/-- The address that a client uses where it is given none: the chosen one, or else the constant of
the first server. -/
inductive DefaultUrl where
  /-- An address. -/
  | literal (url : String)
  /-- The constant of a server. -/
  | constant (name : String)
deriving DecidableEq, Repr

/-- The address that a client uses where it is given none. -/
def defaultUrl (plan : Plan) : DefaultUrl :=
  match plan.clientUrl, plan.serverConstants with
  | some url, _ => .literal url
  | none, (name, _) :: _ => .constant name
  | none, [] => .literal "localhost"

/-- The name of the class of a group, which is made from the segments of its path. -/
def groupClass (plan : Plan) (suffix : String) (group : Group) : String :=
  plan.clientName ++ String.join (group.path.map Naming.pascal) ++ suffix

end Plan

namespace Group

/-- Go through the members of a group that are left, where `seen` holds the names given so far. -/
def checkMembersAfter (identifier : String → String) (reserved : List String) (group : Group)
    (seen : List String) : List String → Except GenerationError Unit
  | [] => .ok ()
  | key :: rest =>
    if reserved.contains (identifier key) then
      .error (.nameCollision group.displayPath (identifier key)
        ("'" ++ key ++ "' renders to a member the generated client class already defines"))
    else if seen.contains (identifier key) then
      .error (.nameCollision group.displayPath (identifier key)
        ("'" ++ key ++ "' renders to an identifier that is already in use"))
    else checkMembersAfter identifier reserved group (identifier key :: seen) rest

/-- The members of a group have different names in a target language, and none of them is
reserved. -/
def checkMembers (identifier : String → String) (reserved : List String) (group : Group) :
    Except GenerationError Unit :=
  checkMembersAfter identifier reserved group [] group.memberNames

/-- The members of all groups of a tree have different names in a target language, and none of them
is reserved for the classes of the root or of the groups below it. -/
def checkTree (identifier : String → String) (ofRoot ofOthers : List String) (root : Group) :
    Except GenerationError Unit :=
  root.descendants.forM fun group ↦
    group.checkMembers identifier (if group.isRoot then ofRoot else ofOthers)

end Group

end RpcForge

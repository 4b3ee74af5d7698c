import RpcForge.Client.Call
import RpcForge.Client.Plan
import RpcForge.Package.Comment
import RpcForge.Text.Quoted

/-!
# The client of a Python package

The module with the clients, first as declarations and then as text. For each way of calling that
some client has, every group has a class of its own; a client holds an object of these classes for
each group at the top, and every such object holds those for the groups below it.
-/

namespace RpcForge.PythonClient

open RpcForge.Text (quote)

/-- Whether a call blocks or is awaited. -/
inductive CallStyle where
  /-- The call returns when the answer is there. -/
  | blocking
  /-- The call is awaited. -/
  | awaited
deriving DecidableEq, Repr

namespace CallStyle

/-- Both ways of calling. -/
def all : List CallStyle := [.blocking, .awaited]

/-- The words that begin the definition of a function. -/
def defWords : CallStyle → String
  | .blocking => "def"
  | .awaited => "async def"

/-- What stands before a call. -/
def awaitWord : CallStyle → String
  | .blocking => ""
  | .awaited => "await "

/-- The type of the function that sends a request. -/
def callType : CallStyle → String
  | .blocking => "Callable[[str, Any], Any]"
  | .awaited => "Callable[[str, Any], Awaitable[Any]]"

/-- The end of the name of the class of a group. -/
def classSuffix : CallStyle → String
  | .blocking => "Methods"
  | .awaited => "AsyncMethods"

end CallStyle

/-- A function for an operation. -/
structure Def where
  /-- The name. -/
  name : String
  /-- The parameters besides the object itself. -/
  args : List Argument
  /-- The type of the result, if the function returns something. -/
  returns : Option String
  /-- The documentation. -/
  doc : String
  /-- The name of the operation that is sent. -/
  method : String
  /-- What is sent with it. -/
  payload : Payload
deriving Repr

/-- The class of a group. -/
structure GroupClass where
  /-- The name. -/
  name : String
  /-- The path of the group. -/
  path : List String
  /-- Whether calls block. -/
  style : CallStyle
  /-- The members for the groups below. -/
  subgroups : List SubgroupMember
  /-- The functions for the operations. -/
  defs : List Def

/-- The class of a client. -/
structure ClientClass where
  /-- The name. -/
  name : String
  /-- The class that it extends. -/
  base : String
  /-- The transport. -/
  transport : Transport
  /-- Whether calls block. -/
  style : CallStyle
  /-- The members for the groups at the top. -/
  subgroups : List SubgroupMember
  /-- The functions for the operations that belong to no group. -/
  defs : List Def

/-- The module with the clients. -/
structure Module where
  /-- The title of the interface. -/
  title : String
  /-- The transports. -/
  transports : List Transport
  /-- Whether there is a module with models. -/
  hasModels : Bool
  /-- The constants for the servers, with their addresses. -/
  servers : List (String × String)
  /-- The address that a client uses where it is given none. -/
  defaultUrl : Plan.DefaultUrl
  /-- The classes of the groups. -/
  groupClasses : List GroupClass
  /-- The classes of the clients. -/
  clients : List ClientClass

/-! ## Declarations -/

/-- The function for an operation under a key of its group. -/
def defOf (key : String) (operation : Operation) : Def where
  name := Naming.pythonIdentifier key
  args := operation.orderedParams.map (Argument.ofParameter .python Naming.pythonIdentifier)
  returns :=
    if operation.returnsNothing then none
    else some (TypeExpr.typeOf .python operation.result.meaning)
  doc := operation.docWith "Deprecated."
  method := operation.name
  payload := Payload.ofOperation Naming.pythonIdentifier operation

/-- The functions for the operations of a group. -/
def defsOf (group : Group) : List Def :=
  group.operations.map fun (key, operation) ↦ defOf key operation

/-- The name of the class of a group for a way of calling. -/
def groupClassName (plan : Plan) (style : CallStyle) (group : Group) : String :=
  plan.groupClass style.classSuffix group

/-- The members for the groups in a group. -/
def subgroupsOf (plan : Plan) (style : CallStyle) (group : Group) : List SubgroupMember :=
  (Entries.values group.groups).map fun inner ↦
    { name := Naming.pythonIdentifier inner.name, className := groupClassName plan style inner }

/-- The class of a group for a way of calling. -/
def groupClassOf (plan : Plan) (style : CallStyle) (group : Group) : GroupClass where
  name := groupClassName plan style group
  path := group.path
  style := style
  subgroups := subgroupsOf plan style group
  defs := defsOf group

/-- The clients for a transport, each by the middle of its name, its base and its way of calling.
The connection that stays open is only awaited. -/
def clientForms : Transport → List (String × String × CallStyle)
  | .http =>
    [("HTTP", "RPCHTTPClient", .blocking), ("AsyncHTTP", "AsyncRPCHTTPClient", .awaited)]
  | .ws => [("WS", "RPCWSClient", .awaited)]

/-- The classes of the clients for a transport. -/
def clientsFor (plan : Plan) (transport : Transport) : List ClientClass :=
  (clientForms transport).map fun (middle, base, style) ↦
    { name := plan.clientName ++ middle ++ "Client"
      base := base
      transport := transport
      style := style
      subgroups := subgroupsOf plan style plan.root
      defs := defsOf plan.root }

/-- The classes of the clients. -/
def clientsOf (plan : Plan) : List ClientClass :=
  plan.transports.flatMap (clientsFor plan)

/-- The ways of calling that some client has. -/
def stylesOf (plan : Plan) : List CallStyle :=
  CallStyle.all.filter fun style ↦ (clientsOf plan).any (·.style == style)

/-- The module with the clients for a plan. -/
def moduleOf (plan : Plan) : Module where
  title := plan.interface.info.title
  transports := plan.transports
  hasModels := plan.hasModels
  servers := plan.serverConstants
  defaultUrl := plan.defaultUrl
  groupClasses := (stylesOf plan).flatMap fun style ↦ plan.groups.map (groupClassOf plan style)
  clients := clientsOf plan

/-- The name of the class with the constants for the servers. -/
def serversClass : String := "Servers"

/-- The name of the function that prepares what is sent. -/
def serializeFunction : String := "_serialize"

namespace Module

/-- The names that the module offers. -/
def exported (m : Module) : List String :=
  serversClass :: m.groupClasses.map GroupClass.name ++ m.clients.map ClientClass.name

/-- The names that the module defines. -/
def topLevelNames (m : Module) : List String :=
  [serversClass, serializeFunction] ++ m.groupClasses.map GroupClass.name ++
    m.clients.map ClientClass.name

/-- The base classes that a transport takes from its library, in alphabetical order. -/
def basesFor (m : Module) (transport : Transport) : List String :=
  ((m.clients.filter (·.transport == transport)).map ClientClass.base).mergeSort

end Module

/-! ## Text -/

/-- A type that also allows for nothing. -/
def optionalType (type : String) : String :=
  if Text.startsWith type "Optional[" || type == "None" then type else "Optional[" ++ type ++ "]"

/-- A parameter of a function; one that need not be given is nothing by default. -/
def argumentText (arg : Argument) : String :=
  if arg.required then arg.name ++ ": " ++ arg.type
  else arg.name ++ ": " ++ optionalType arg.type ++ " = None"

/-- An argument as it is sent. -/
def serialized (name : String) : String :=
  serializeFunction ++ "(" ++ name ++ ")"

/-- What is sent with a request. -/
def payloadText : Payload → String
  | .array names => "[" ++ ", ".intercalate (names.map serialized) ++ "]"
  | .object members =>
    "\x7b" ++
      ", ".intercalate (members.map fun (key, name) ↦ quote key ++ ": " ++ serialized name) ++
      "\x7d"

/-- Names in a tuple, one on a line. -/
def tupleCode (name : String) (items : List String) : List Code :=
  [.line (name ++ " = ("), .nested (items.map fun item ↦ .line (quote item ++ ",")), .line ")"]

/-- The header of a function without its colon. -/
def defHeader (style : CallStyle) (d : Def) : String :=
  style.defWords ++ " " ++ d.name ++ "(" ++ ", ".intercalate ("self" :: d.args.map argumentText) ++
    ") -> " ++ d.returns.getD "None"

/-- The request of a function and what becomes of its answer. -/
def requestCode (style : CallStyle) (call : String) (d : Def) : List Code :=
  let request := style.awaitWord ++ call ++ "(" ++ quote d.method ++ ", params)"
  match d.returns with
  | none => [.line request]
  | some type =>
    [.line ("result = " ++ request),
      .line ("return TypeAdapter(" ++ type ++ ").validate_python(result)")]

/-- A function. -/
def defCode (style : CallStyle) (call : String) (d : Def) : List Code :=
  [.blank,
    .suite (defHeader style d)
      (Comment.docstring d.doc ++ [.line ("params = " ++ payloadText d.payload)] ++
        requestCode style call d)]

/-- The members for groups. -/
def subgroupCode (call : String) (member : SubgroupMember) : Code :=
  .line ("self." ++ member.name ++ " = " ++ member.className ++ "(" ++ call ++ ")")

/-- The class of a group. -/
def groupClassCode (c : GroupClass) : List Code :=
  [.blank, .blank,
    .suite ("class " ++ c.name)
      (Comment.docstring ("Methods under ``" ++ ".".intercalate c.path ++ "``.") ++
        [.blank,
          .suite ("def __init__(self, call: " ++ c.style.callType ++ ") -> None")
            (.line "self._call = call" :: c.subgroups.map (subgroupCode "call"))] ++
        c.defs.flatMap (defCode c.style "self._call"))]

/-- The address that a client uses where it is given none. -/
def defaultUrlText : Plan.DefaultUrl → String
  | .literal url => quote url
  | .constant name => serversClass ++ "." ++ name

/-- What stands before the title in the documentation of a client. -/
def flavor : CallStyle → String
  | .blocking => ""
  | .awaited => "Async "

/-- The class of a client. -/
def clientClassCode (m : Module) (c : ClientClass) : List Code :=
  [.blank, .blank,
    .suite ("class " ++ c.name ++ "(" ++ c.base ++ ")")
      (Comment.docstring
          (flavor c.style ++ m.title ++ " client over " ++ c.transport.classSuffix ++ ".") ++
        [.blank,
          .line "def __init__(",
          .nested [
            .line "self,",
            .line ("url: str = " ++ defaultUrlText m.defaultUrl ++ ","),
            .line "headers: Optional[dict[str, Any]] = None,"],
          .suite ") -> None"
            (.line "super().__init__(url, headers or \x7b\x7d)" ::
              c.subgroups.map (subgroupCode "self.call"))] ++
        c.defs.flatMap (defCode c.style "self.call"))]

/-- The imports. -/
def importCode (m : Module) : List Code :=
  [.line "from __future__ import annotations",
    .blank,
    .line "import datetime",
    .line "from typing import *",
    .line "from uuid import UUID",
    .blank] ++
  (m.transports.map fun transport ↦
    .line ("from jsonrpc2pyclient." ++ transport.name ++ "client import " ++
      ", ".intercalate (m.basesFor transport))) ++
  [.line "from pydantic import UUID1, UUID3, UUID4, UUID5, TypeAdapter",
    .line "from pydantic_core import to_jsonable_python"] ++
  (if m.hasModels then [.blank, .line "from .models import *"] else []) ++
  [.blank]

/-- The class with the constants for the servers. -/
def serversCode (m : Module) : List Code :=
  [.blank, .blank,
    .suite ("class " ++ serversClass)
      (Comment.docstring "Servers listed in the API description." ++ [.blank] ++
        m.servers.map fun (name, url) ↦ .line (name ++ " = " ++ quote url))]

/-- The function that prepares what is sent. -/
def serializeCode : List Code :=
  [.blank, .blank,
    .suite ("def " ++ serializeFunction ++ "(value: Any) -> Any")
      [.line "return to_jsonable_python(value, by_alias=True)"]]

/-- The module as code. -/
def moduleCode (m : Module) : List Code :=
  Comment.docstring (Comment.heading m.title "client") ++ importCode m ++
    tupleCode "__all__" m.exported ++ serversCode m ++ serializeCode ++
    m.groupClasses.flatMap groupClassCode ++ m.clients.flatMap (clientClassCode m)

/-- One unit of indentation. -/
def indentation : String := "    "

/-- The module as text. -/
def render (m : Module) : String :=
  Code.render indentation (moduleCode m)

end RpcForge.PythonClient

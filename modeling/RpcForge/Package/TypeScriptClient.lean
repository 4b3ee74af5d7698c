import RpcForge.Client.Call
import RpcForge.Client.Plan
import RpcForge.Package.Comment
import RpcForge.Text.Quoted

/-!
# The client of a TypeScript package

The source with the clients, first as declarations and then as text. Every group has one class, and
every transport has a client. What an operation returns is turned into the classes of its models.
-/

namespace RpcForge.TypeScriptClient

open RpcForge.Text (quote)

/-- The parameters of a method. -/
inductive Signature where
  /-- Parameters in order. -/
  | positional (args : List Argument)
  /-- One object, of which these names are taken; the whole may be left out if every one of them
  may. -/
  | destructured (names : List String) (interfaceName : String) (mayBeLeftOut : Bool)

/-- What a method does with the answer. -/
inductive Outcome where
  /-- It is dropped. -/
  | dropped
  /-- It is returned as it is, under a type. -/
  | asIs (type : String)
  /-- It is converted by an expression, which yields a type. -/
  | converted (type expression : String)

/-- The type of what a method returns. -/
def Outcome.type : Outcome → String
  | .dropped => "void"
  | .asIs type => type
  | .converted type _ => type

/-- A method for an operation. -/
structure MethodDef where
  /-- The name. -/
  name : String
  /-- The parameters. -/
  signature : Signature
  /-- The documentation. -/
  doc : String
  /-- The name of the operation that is sent. -/
  method : String
  /-- What is sent with it. -/
  payload : Payload
  /-- What becomes of the answer. -/
  outcome : Outcome

/-- A property of the interface of parameters. -/
structure Property where
  /-- The name, the type and whether it has to be given. -/
  argument : Argument
  /-- A description. -/
  description : Option String

/-- The interface of the parameters of an operation that are sent by name. -/
structure ParametersInterface where
  /-- The name. -/
  name : String
  /-- The properties. -/
  properties : List Property

/-- The class of a group. -/
structure GroupClass where
  /-- The name. -/
  name : String
  /-- The path of the group. -/
  path : List String
  /-- The members for the groups below. -/
  subgroups : List SubgroupMember
  /-- The methods for the operations. -/
  methods : List MethodDef

/-- The class of a client. -/
structure ClientClass where
  /-- The name. -/
  name : String
  /-- The class that it extends. -/
  base : String
  /-- The transport. -/
  transport : Transport
  /-- The members for the groups at the top. -/
  subgroups : List SubgroupMember
  /-- The methods for the operations that belong to no group. -/
  methods : List MethodDef

/-- The source with the clients. -/
structure Source where
  /-- The title of the interface. -/
  title : String
  /-- The names of the models, if there is a source with models. -/
  models : Option (List String)
  /-- The constants for the servers, with their addresses. -/
  servers : List (String × String)
  /-- The address that a client uses where it is given none. -/
  defaultUrl : Plan.DefaultUrl
  /-- The interfaces of parameters. -/
  interfaces : List ParametersInterface
  /-- The classes of the groups. -/
  groupClasses : List GroupClass
  /-- The classes of the clients. -/
  clients : List ClientClass

/-! ## Answers -/

mutual

/-- The expression that turns raw JSON into a value of what it means, or nothing where the raw JSON
can be used as it is. -/
def fromJson? (models : Models) (meaning : Meaning) (raw : String) : Option String :=
  match models.recordOf? meaning with
  | some model => some (model.name ++ ".fromJSON(" ++ raw ++ ")")
  | none =>
    match meaning with
    | .types members => soleFromJson? models members raw (members.any (·.isNull))
    | .union _ branches => soleFromJson? models branches raw (branches.any (·.isNull))
    | .list items distinct =>
      let mapped := (itemFromJson? models items).map fun inner ↦
        raw ++ ".map((it: any) => " ++ inner ++ ")"
      if distinct then some ("new Set(" ++ mapped.getD raw ++ ")") else mapped
    | _ => none
termination_by structural meaning

/-- The expression that turns each raw item of an array into a value. -/
def itemFromJson? (models : Models) (items : Option Meaning) : Option String :=
  match items with
  | some m => fromJson? models m "it"
  | none => none
termination_by structural items

/-- The expression for the only member that is not `null`, if there is just one. -/
def soleFromJson? (models : Models) (members : List Meaning) (raw : String) (nullable : Bool) :
    Option String :=
  match members with
  | [] => none
  | m :: ms =>
    if m.isNull then soleFromJson? models ms raw nullable
    else if ms.all (·.isNull) then
      (fromJson? models m raw).map fun inner ↦
        if nullable then raw ++ " == null ? null : " ++ inner else inner
    else none
termination_by structural members

end

/-- What becomes of the answer to an operation. -/
def outcomeOf (models : Models) (operation : Operation) : Outcome :=
  if operation.returnsNothing then .dropped
  else
    let type := TypeExpr.typeOf .typeScript operation.result.meaning
    match fromJson? models operation.result.meaning "result" with
    | some expression => .converted type expression
    | none => .asIs type

/-! ## Declarations -/

/-- Whether the parameters of an operation are taken as one object. -/
def takesObject (operation : Operation) : Bool :=
  operation.passing == .byName && !operation.params.isEmpty

/-- The name of the interface of the parameters of an operation. -/
def interfaceName (operation : Operation) : String :=
  Naming.pascal operation.name ++ "Parameters"

/-- The parameters of the method for an operation. -/
def signatureOf (operation : Operation) : Signature :=
  match operation.passing with
  | .byPosition =>
    .positional (operation.orderedParams.map
      (Argument.ofParameter .typeScript Naming.typeScriptIdentifier))
  | .byName =>
    if operation.params.isEmpty then .positional []
    else
      .destructured (operation.params.map fun param ↦ Naming.typeScriptIdentifier param.name)
        (interfaceName operation) (operation.params.all (!·.required))

/-- The method for an operation under a key of its group. -/
def methodOf (models : Models) (key : String) (operation : Operation) : MethodDef where
  name := Naming.camel key
  signature := signatureOf operation
  doc := operation.docWith "@deprecated"
  method := operation.name
  payload := Payload.ofOperation Naming.typeScriptIdentifier operation
  outcome := outcomeOf models operation

/-- The methods for the operations of a group. -/
def methodsOf (models : Models) (group : Group) : List MethodDef :=
  group.operations.map fun (key, operation) ↦ methodOf models key operation

/-- The interface of the parameters of an operation. -/
def interfaceOf (operation : Operation) : ParametersInterface where
  name := interfaceName operation
  properties := operation.params.map fun param ↦
    { argument := Argument.ofParameter .typeScript Naming.typeScriptIdentifier param
      description := param.description }

/-- The name of the class of a group. -/
def groupClassName (plan : Plan) (group : Group) : String :=
  plan.groupClass "Methods" group

/-- The members for the groups in a group. -/
def subgroupsOf (plan : Plan) (group : Group) : List SubgroupMember :=
  (Entries.values group.groups).map fun inner ↦
    { name := Naming.camel inner.name, className := groupClassName plan inner }

/-- The class of a group. -/
def groupClassOf (plan : Plan) (group : Group) : GroupClass where
  name := groupClassName plan group
  path := group.path
  subgroups := subgroupsOf plan group
  methods := methodsOf plan.interface.models group

/-- The class that a client for a transport extends. -/
def baseOf (transport : Transport) : String :=
  "RPC" ++ transport.classSuffix ++ "Client"

/-- The name of the client for a transport. -/
def clientClassName (plan : Plan) (transport : Transport) : String :=
  plan.clientName ++ transport.classSuffix ++ "Client"

/-- The class of the client for a transport. -/
def clientOf (plan : Plan) (transport : Transport) : ClientClass where
  name := clientClassName plan transport
  base := baseOf transport
  transport := transport
  subgroups := subgroupsOf plan plan.root
  methods := methodsOf plan.interface.models plan.root

/-- The operations of a tree, those of a group before those of the groups below it. -/
def operationsOf (plan : Plan) : List Operation :=
  plan.root.descendants.flatMap fun group ↦ Entries.values group.operations

/-- The source with the clients for a plan. -/
def sourceOf (plan : Plan) : Source where
  title := plan.interface.info.title
  models := if plan.hasModels then some plan.interface.models.names else none
  servers := plan.serverConstants
  defaultUrl := plan.defaultUrl
  interfaces := ((operationsOf plan).filter takesObject).map interfaceOf
  groupClasses := plan.groups.map (groupClassOf plan)
  clients := plan.transports.map (clientOf plan)

/-- The name of the enumeration of the servers. -/
def serversEnum : String := "Servers"

/-- The name of the type of functions that send requests. -/
def callType : String := "RpcCall"

/-- The names of the functions that prepare what is sent. -/
def serializeFunctions : List String :=
  ["serializeArrayParams", "serializeObjectParams", "serialize"]

/-- The names that the source imports or declares. -/
def Source.topLevelNames (s : Source) : List String :=
  s.clients.map ClientClass.base ++ s.models.getD [] ++ [serversEnum, callType] ++
    s.interfaces.map ParametersInterface.name ++ s.groupClasses.map GroupClass.name ++
    s.clients.map ClientClass.name ++ serializeFunctions

/-! ## Text -/

/-- A name, with a mark behind it if it may be left out, and its type. -/
def argumentText (arg : Argument) : String :=
  arg.name ++ (if arg.required then "" else "?") ++ ": " ++ arg.type

/-- The parameters of a method. -/
def signatureText : Signature → String
  | .positional args => ", ".intercalate (args.map argumentText)
  | .destructured names interfaceName mayBeLeftOut =>
    "\x7b " ++ ", ".intercalate names ++ " \x7d: " ++ interfaceName ++
      (if mayBeLeftOut then " = \x7b\x7d" else "")

/-- What is sent with a request. -/
def payloadText : Payload → String
  | .array names => "serializeArrayParams([" ++ ", ".intercalate names ++ "])"
  | .object [] => "\x7b\x7d"
  | .object members =>
    "serializeObjectParams(\x7b " ++
      ", ".intercalate (members.map fun (key, name) ↦ quote key ++ ": " ++ name) ++ " \x7d)"

/-- The request of a method and what becomes of its answer. -/
def requestCode (call : String) (m : MethodDef) : List Code :=
  let request := "await " ++ call ++ "(" ++ quote m.method ++ ", params);"
  match m.outcome with
  | .dropped => [.line request]
  | .asIs type =>
    [.line ("const result = " ++ request), .line ("return result as " ++ type ++ ";")]
  | .converted _ expression =>
    [.line ("const result = " ++ request), .line ("return " ++ expression ++ ";")]

/-- A method. -/
def methodCode (call : String) (m : MethodDef) : List Code :=
  .blank :: Comment.block m.doc ++
    [.braced
      ("async " ++ m.name ++ "(" ++ signatureText m.signature ++ "): Promise<" ++ m.outcome.type ++
        ">")
      (.line ("const params = " ++ payloadText m.payload ++ ";") :: requestCode call m)]

/-- A property of the interface of parameters. -/
def propertyCode (p : Property) : List Code :=
  (p.description.map Comment.block).getD [] ++ [.line (argumentText p.argument ++ ";")]

/-- The interface of the parameters of an operation. -/
def interfaceCode (i : ParametersInterface) : List Code :=
  [.blank, .braced ("export interface " ++ i.name) (i.properties.flatMap propertyCode)]

/-- The declarations of the members for groups. -/
def subgroupFields (members : List SubgroupMember) : List Code :=
  members.map fun member ↦ .line ("readonly " ++ member.name ++ ": " ++ member.className ++ ";")

/-- The assignments of the members for groups. -/
def subgroupAssignments (members : List SubgroupMember) : List Code :=
  members.map fun member ↦
    .line ("this." ++ member.name ++ " = new " ++ member.className ++ "(rpc);")

/-- The class of a group. -/
def groupClassCode (c : GroupClass) : List Code :=
  [.blank,
    .line ("/** Methods under `" ++ ".".intercalate c.path ++ "`. */"),
    .braced ("export class " ++ c.name)
      (.line "private readonly rpc: RpcCall;" :: subgroupFields c.subgroups ++
        [.blank,
          .braced "constructor(rpc: RpcCall)"
            (.line "this.rpc = rpc;" :: subgroupAssignments c.subgroups)] ++
        c.methods.flatMap (methodCode "this.rpc"))]

/-- The address that a client uses where it is given none. -/
def defaultUrlText : Plan.DefaultUrl → String
  | .literal url => quote url
  | .constant name => serversEnum ++ "." ++ name

/-- The class of a client. -/
def clientClassCode (s : Source) (c : ClientClass) : List Code :=
  [.blank,
    .line ("/** " ++ s.title ++ " client over " ++ c.transport.classSuffix ++ ". */"),
    .braced ("export class " ++ c.name ++ " extends " ++ c.base)
      (subgroupFields c.subgroups ++ (if c.subgroups.isEmpty then [] else [.blank]) ++
        [.braced
          ("constructor(url: string = " ++ defaultUrlText s.defaultUrl ++ ", headers?: object)")
          (.line "super(url, headers);" ::
            if c.subgroups.isEmpty then []
            else
              .line "const rpc: RpcCall = (method, params) => this.call(method, params);" ::
                subgroupAssignments c.subgroups)] ++
        c.methods.flatMap (methodCode "this.call"))]

/-- Names that are imported from a source. -/
def importLine (names : List String) (source : String) : Code :=
  .line ("import \x7b " ++ ", ".intercalate names ++ " \x7d from " ++ quote source ++ ";")

/-- The imports. -/
def importCode (s : Source) : List Code :=
  importLine (s.clients.map ClientClass.base) "jsonrpc2-tsclient" ::
    (match s.models with
      | some names => [importLine names "./models.js"]
      | none => [])

/-- The enumeration of the servers, and the type of functions that send requests. -/
def serversCode (s : Source) : List Code :=
  [.blank,
    .braced ("export enum " ++ serversEnum)
      (s.servers.map fun (name, url) ↦ .line (name ++ " = " ++ quote url ++ ",")),
    .blank,
    .line "type RpcCall = (method: string, params: any) => Promise<any>;"]

/-- The functions that prepare what is sent. -/
def serializeCode : List Code :=
  [.blank,
    .braced "function serializeArrayParams(values: any[]): any[]"
      [.line "return values.map((it) => serialize(it));"],
    .blank,
    .braced
      ("function serializeObjectParams(values: \x7b [key: string]: any \x7d): " ++
        "\x7b [key: string]: any \x7d")
      [.line "const serialized: \x7b [key: string]: any \x7d = \x7b\x7d;",
        .braced "for (const [key, value] of Object.entries(values))"
          [.braced "if (value !== undefined)" [.line "serialized[key] = serialize(value);"]],
        .line "return serialized;"],
    .blank,
    .braced "function serialize(value: any): any"
      [.braced "if (value instanceof Set)"
          [.line "return Array.from(value, (it) => serialize(it));"],
        .braced
          ("if (value !== null && value !== undefined && " ++
            "typeof value.toJSON === \"function\")")
          [.line "return value.toJSON();"],
        .line "return value;"]]

/-- The source as code. -/
def sourceCode (s : Source) : List Code :=
  Comment.block (Comment.heading s.title "client") ++ importCode s ++ serversCode s ++
    s.interfaces.flatMap interfaceCode ++ s.groupClasses.flatMap groupClassCode ++
    s.clients.flatMap (clientClassCode s) ++ serializeCode

/-- One unit of indentation. -/
def indentation : String := "  "

/-- The source as text. -/
def render (s : Source) : String :=
  Code.render indentation (sourceCode s)

end RpcForge.TypeScriptClient

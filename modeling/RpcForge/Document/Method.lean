import RpcForge.Document.Descriptor
import RpcForge.Document.Server

/-!
# Methods

What can be called, with which parameters and what result. A method without a result is a
notification.
-/

namespace RpcForge

open RpcForge.Json

/-- How parameters are sent. -/
inductive ParameterStructure where
  /-- As an object with their names as keys. -/
  | byName
  /-- As an array in their order. -/
  | byPosition
  /-- As either of both. -/
  | either
deriving DecidableEq, Repr

namespace ParameterStructure

/-- How the choice is written. -/
def name : ParameterStructure → String
  | .byName => "by-name"
  | .byPosition => "by-position"
  | .either => "either"

/-- The choice that is written in a given way. -/
def ofName? (text : String) : Option ParameterStructure :=
  [.byName, .byPosition, .either].find? (·.name == text)

/-- The choice in a value of the right shape. -/
def build : Value → Option ParameterStructure
  | .string s => ofName? s
  | .object ((key, _) :: _) => ofName? key
  | _ => none

end ParameterStructure

/-- A method. -/
structure Method where
  /-- The name, which is sent as it is. -/
  name : String
  /-- Tags. -/
  tags : Option (List Value) := none
  /-- A summary. -/
  summary : Option String := none
  /-- A description. -/
  description : Option String := none
  /-- Where more can be read. -/
  externalDocs : Option Value := none
  /-- The parameters, those that have to be given first. -/
  params : List DescriptorOrReference
  /-- The result, if there is one. -/
  result : Option DescriptorOrReference := none
  /-- Whether the method should no longer be used. -/
  deprecated : Option Bool := none
  /-- Servers for this method. -/
  servers : Option (List Server) := none
  /-- Errors. -/
  errors : Option (List Value) := none
  /-- Links. -/
  links : Option (List Value) := none
  /-- How parameters are sent. -/
  paramStructure : Option ParameterStructure := none
  /-- Examples. -/
  examples : Option (List Value) := none
  /-- Further members. -/
  extensions : Extensions := .empty

namespace Method

/-- Whether the method should no longer be used. -/
def isDeprecated (method : Method) : Bool :=
  method.deprecated.getD false

/-- Whether the method has no result. -/
def isNotification (method : Method) : Bool :=
  method.result.isNone

/-- How parameters are sent; either way unless the document says more. -/
def parameterStructure (method : Method) : ParameterStructure :=
  method.paramStructure.getD .either

/-- Set the summary. -/
def withSummary (method : Method) (summary : String) : Method :=
  { method with summary := some summary }

/-- Set the description. -/
def withDescription (method : Method) (description : String) : Method :=
  { method with description := some description }

/-- Set the result. -/
def withResult (method : Method) (result : DescriptorOrReference) : Method :=
  { method with result := some result }

/-- Say how parameters are sent. -/
def withStructure (method : Method) (choice : ParameterStructure) : Method :=
  { method with paramStructure := some choice }

/-- Say that the method should no longer be used. -/
def asDeprecated (method : Method) : Method :=
  { method with deprecated := some true }

/-- The parameters that are written out. -/
def inlineParams (method : Method) : List Descriptor :=
  method.params.filterMap OrReference.inline?

/-- The first parameter that has to be given although one before it need not be. -/
def misplaced? (seenOptional : Bool) : List Descriptor → Option Descriptor
  | [] => none
  | descriptor :: rest =>
    if !descriptor.isRequired then misplaced? true rest
    else if seenOptional then some descriptor
    else misplaced? seenOptional rest

/-- Parameters that have to be given stand before those that need not be. References are not looked
into. -/
def checkOrder (method : Method) : Check :=
  match misplaced? false method.inlineParams with
  | some descriptor =>
    .broken ("required parameter '" ++ descriptor.name ++
      "' must be positioned before optional parameters")
  | none => .pass

/-- The name is well-formed, parameters differ and stand in order, parameters, result and servers
obey their rules, and further members are extensions. -/
def check (method : Method) : Check :=
  .first [Wellformed.checkMethodName method.name,
    Wellformed.checkDistinct "method parameters" (method.params.map DescriptorOrReference.key),
    .indexed "params" (OrReference.check Descriptor.check) method.params,
    method.checkOrder,
    .optional (fun r ↦ (OrReference.check Descriptor.check r).under "result") method.result,
    .indexed "servers" Server.check (method.servers.getD []),
    method.extensions.check]

/-- The method with given members. -/
def build (members : Entries Value) : Method where
  name := Members.text members "name"
  tags := Members.items? members "tags"
  summary := Members.text? members "summary"
  description := Members.text? members "description"
  externalDocs := Members.present? members "externalDocs"
  params := ((Members.items? members "params").getD []).map (OrReference.build Descriptor.build)
  result := (Members.present? members "result").map (OrReference.build Descriptor.build)
  deprecated := Members.flag? members "deprecated"
  servers := (Members.items? members "servers").map Server.buildAll
  errors := Members.items? members "errors"
  links := Members.items? members "links"
  paramStructure := (Entries.get? members "paramStructure").bind ParameterStructure.build
  examples := Members.items? members "examples"
  extensions := .ofMembers .method members

/-- A method as an object. -/
def toValue (method : Method) : Value :=
  .object <|
    Members.always "name" (.string method.name) ++
    Members.given "tags" .array method.tags ++
    Members.given "summary" .string method.summary ++
    Members.given "description" .string method.description ++
    Members.given "externalDocs" id method.externalDocs ++
    Members.always "params" (.array (method.params.map (OrReference.toValue Descriptor.toValue))) ++
    Members.given "result" (OrReference.toValue Descriptor.toValue) method.result ++
    Members.given "deprecated" .bool method.deprecated ++
    Members.given "servers" (fun servers ↦ .array (servers.map Server.toValue)) method.servers ++
    Members.given "errors" .array method.errors ++
    Members.given "links" .array method.links ++
    Members.given "paramStructure" (fun s ↦ .string s.name) method.paramStructure ++
    Members.given "examples" .array method.examples ++
    method.extensions.entries

end Method

/-- A method or a reference to one. -/
abbrev MethodOrReference := OrReference Method

namespace MethodOrReference

/-- The name of a method, or the pointer of a reference. -/
def key : MethodOrReference → String
  | .inline method => method.name
  | .reference r => r.pointer

/-- Read a method or a reference to one. -/
def ofValue (v : Value) : Except DocumentError MethodOrReference :=
  Part.decode (.whole .methodOrReference) (OrReference.build Method.build) v

end MethodOrReference

end RpcForge

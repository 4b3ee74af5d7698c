import RpcForge.Document.Extensions

/-!
# Servers

Where an interface is offered. The address of a server may hold placeholders, a name between braces,
for which its variables have values.
-/

namespace RpcForge

open RpcForge.Json

/-- A variable in the address of a server. -/
structure ServerVariable where
  /-- The values that are allowed. -/
  enum : Option (List String) := none
  /-- The value to take where no other one is given. -/
  default : String
  /-- A description. -/
  description : Option String := none
  /-- Further members. -/
  extensions : Extensions := .empty
deriving Inhabited

namespace ServerVariable

/-- Set the values that are allowed. -/
def withEnum (v : ServerVariable) (values : List String) : ServerVariable :=
  { v with enum := some values }

/-- The default is one of the values that are allowed. -/
def checkDefault (v : ServerVariable) : Check :=
  match v.enum with
  | some values =>
    if values.contains v.default then .pass
    else .error (.invalidField "default" ("'" ++ v.default ++ "' is not among the enum values"))
  | none => .pass

/-- The default is allowed, and further members are extensions. -/
def check (v : ServerVariable) : Check :=
  .first [v.checkDefault, v.extensions.check]

/-- The variable with given members. -/
def build (members : Entries Value) : ServerVariable where
  enum := Members.texts? members "enum"
  default := Members.text members "default"
  description := Members.text? members "description"
  extensions := .ofMembers .serverVariable members

/-- Read a variable. -/
def ofValue (v : Value) : Except DocumentError ServerVariable :=
  Part.decode (.record .serverVariable) (fun v ↦ build (v.members?.getD [])) v

/-- A variable as an object. -/
def toValue (v : ServerVariable) : Value :=
  .object <|
    Members.given "enum" .ofStrings v.enum ++
    Members.always "default" (.string v.default) ++
    Members.given "description" .string v.description ++
    v.extensions.entries

end ServerVariable

/-- A server. -/
structure Server where
  /-- The name. -/
  name : String
  /-- The address, which may hold placeholders. -/
  url : String
  /-- A summary. -/
  summary : Option String := none
  /-- A description. -/
  description : Option String := none
  /-- The variables for the placeholders. -/
  urlVariables : Option (Entries ServerVariable) := none
  /-- Further members. -/
  extensions : Extensions := .empty
deriving Inhabited

namespace Server

/-- The placeholder of a variable. -/
def placeholder (name : String) : String :=
  "\x7b" ++ name ++ "\x7d"

/-- The address with the default of every variable in place of its placeholder. The variables take
their turn in order, so a placeholder within a default is replaced by a later variable. -/
def resolveUrl (server : Server) : String :=
  (server.urlVariables.getD []).foldl
    (fun url (name, v) ↦ Text.replace url (placeholder name) v.default) server.url

/-- A variable has a name and obeys its rules. -/
def checkVariable (entry : String × ServerVariable) : Check :=
  .first [if entry.1.isEmpty then .broken "variable name cannot be empty" else .pass,
    entry.2.check]

/-- Name and address are filled, variables obey their rules, and further members are extensions. -/
def check (server : Server) : Check :=
  .first [if server.name.isEmpty then .error (.missingField "name") else .pass,
    if server.url.isEmpty then .error (.missingField "url") else .pass,
    .all checkVariable (server.urlVariables.getD []), server.extensions.check]

/-- Set the description. -/
def withDescription (server : Server) (description : String) : Server :=
  { server with description := some description }

/-- Put a variable. -/
def withVariable (server : Server) (name : String) (v : ServerVariable) : Server :=
  { server with urlVariables := some (Entries.insert (server.urlVariables.getD []) name v) }

/-- The map of variables with given members. -/
def buildVariables (members : Entries Value) : Entries ServerVariable :=
  Members.mapValues (fun v ↦ .build (v.members?.getD [])) members

/-- The server with given members. -/
def build (members : Entries Value) : Server where
  name := Members.text members "name"
  url := Members.text members "url"
  summary := Members.text? members "summary"
  description := Members.text? members "description"
  urlVariables := (Members.members? members "variables").map buildVariables
  extensions := .ofMembers .server members

/-- Read a server. -/
def ofValue (v : Value) : Except DocumentError Server :=
  Part.decode (.record .server) (fun v ↦ build (v.members?.getD [])) v

/-- A server as an object. -/
def toValue (server : Server) : Value :=
  .object <|
    Members.always "name" (.string server.name) ++
    Members.always "url" (.string server.url) ++
    Members.given "summary" .string server.summary ++
    Members.given "description" .string server.description ++
    Members.given "variables" (fun vs ↦ .object (Members.mapValues ServerVariable.toValue vs))
      server.urlVariables ++
    server.extensions.entries

/-- The servers in the items of an array of the right shape. -/
def buildAll (vs : List Value) : List Server :=
  vs.map fun v ↦ build (v.members?.getD [])

end Server

end RpcForge

import RpcForge.Document.Components
import RpcForge.Document.Info
import RpcForge.Document.Method
import RpcForge.Json.Reader

/-!
# Documents

The description of an interface as a whole. `Document.ofText` reads a text against the grammar and
reports the first fault it meets; `Document.ofValue` judges a value that was read before.
-/

namespace RpcForge

open RpcForge.Json

/-- The description of an interface. -/
structure Document where
  /-- The version of the document format. -/
  openrpc : String
  /-- What the document says about the interface as a whole. -/
  info : Info
  /-- Where the interface is offered. -/
  servers : Option (List Server) := none
  /-- What can be called. -/
  methods : List MethodOrReference
  /-- What other parts refer to. -/
  components : Option Components := none
  /-- Where more can be read. -/
  externalDocs : Option Value := none
  /-- The schema that the document itself follows. -/
  metaSchema : Option String := none
  /-- Further members. -/
  extensions : Extensions := .empty

namespace Document

/-- The server to take where a document lists none. -/
def defaultServer : Server :=
  { name := "default", url := "localhost" }

/-- The servers that a document lists, or the default one. -/
def effectiveServers (document : Document) : List Server :=
  match document.servers with
  | some (server :: servers) => server :: servers
  | _ => [defaultServer]

/-- Whether the version of the document format is supported. -/
def isSupported (document : Document) : Bool :=
  Wellformed.isSupported document.openrpc

/-- The methods that are written out. -/
def inlineMethods (document : Document) : List Method :=
  document.methods.filterMap OrReference.inline?

/-- The document with given methods, in the newest version of the format. -/
def ofMethods (info : Info) (methods : List MethodOrReference) : Document :=
  { openrpc := Wellformed.currentVersion, info := info, methods := methods }

/-- Add a server. -/
def withServer (document : Document) (server : Server) : Document :=
  { document with servers := some (document.servers.getD [] ++ [server]) }

/-- Set the components. -/
def withComponents (document : Document) (components : Components) : Document :=
  { document with components := some components }

/-- The version is supported, all parts obey their rules, methods differ, and further members are
extensions. -/
def check (document : Document) : Check :=
  .first [Wellformed.checkFormatVersion document.openrpc,
    document.info.check.under "info",
    .indexed "servers" Server.check (document.servers.getD []),
    .indexed "methods" (OrReference.check Method.check) document.methods,
    Wellformed.checkDistinct "methods" (document.methods.map MethodOrReference.key),
    .optional (fun components ↦ components.check.under "components") document.components,
    document.extensions.check]

/-- The document with given members. -/
def build (members : Entries Value) : Document where
  openrpc := Members.text members "openrpc"
  info := Info.build ((Members.members? members "info").getD [])
  servers := (Members.items? members "servers").map Server.buildAll
  methods := ((Members.items? members "methods").getD []).map (OrReference.build Method.build)
  components := (Members.members? members "components").map Components.build
  externalDocs := Members.present? members "externalDocs"
  metaSchema := Members.text? members "$schema"
  extensions := .ofMembers .document members

/-- Read a document from a value. -/
def ofValue (v : Value) : Except DocumentError Document :=
  Part.decode (.record .document) (fun v ↦ build (v.members?.getD [])) v

/-- Read a document from a text. -/
def ofText (text : String) : Except DocumentError Document :=
  match Reader.read documentGrammar (.record .document) text with
  | .error e => .error (.json e.message)
  | .ok v => .ok (build (v.members?.getD []))

/-- A document as an object. -/
def toValue (document : Document) : Value :=
  .object <|
    Members.always "openrpc" (.string document.openrpc) ++
    Members.always "info" document.info.toValue ++
    Members.given "servers" (fun servers ↦ .array (servers.map Server.toValue))
      document.servers ++
    Members.always "methods"
      (.array (document.methods.map (OrReference.toValue Method.toValue))) ++
    Members.given "components" Components.toValue document.components ++
    Members.given "externalDocs" id document.externalDocs ++
    Members.given "$schema" .string document.metaSchema ++
    document.extensions.entries

end Document

end RpcForge

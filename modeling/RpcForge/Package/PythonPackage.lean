import RpcForge.Package.File
import RpcForge.Package.PythonModels
import RpcForge.Package.Readme
import RpcForge.Package.Toml

/-!
# Python packages

The files of a Python package: the module with the clients, the one with the models if there are
any, the one that offers both, the description of the project, and a page for its readers.
-/

namespace RpcForge.PythonPackage

/-- The members that a client has from the class that it extends. -/
def clientMembers : List String := ["call", "close", "connect", "headers", "url"]

/-- The directory of the modules. -/
def sourceDirectory (plan : Plan) : List String :=
  ["src", plan.packageName]

/-- The module that offers the others. -/
def initCode (plan : Plan) : List Code :=
  Comment.docstring (plan.interface.info.title ++ " client.") ++ [.line "from .client import *"] ++
    if plan.hasModels then [.line "from .models import *"] else []

/-- The clients of a package, unless members of a group have the same name. No name of a member is
that of the function that a group holds, because none begins with an underscore. -/
def clientFiles (plan : Plan) : Except GenerationError (List SourceFile) :=
  (plan.root.checkTree Naming.pythonIdentifier clientMembers []).map fun _ ↦
    [{ path := sourceDirectory plan ++ ["client.py"]
       contents := PythonClient.render (PythonClient.moduleOf plan) },
     { path := sourceDirectory plan ++ ["__init__.py"]
       contents := Code.render PythonClient.indentation (initCode plan) }]

/-- The models of a package. -/
def modelFiles (plan : Plan) : List SourceFile :=
  if plan.hasModels then
    [{ path := sourceDirectory plan ++ ["models.py"]
       contents := PythonModels.render (PythonModels.moduleOf plan) }]
  else []

/-- The description of the project. -/
def projectTables (plan : Plan) : List Toml.Table :=
  let info := plan.interface.info
  [{ header := "[tool.poetry]"
     entries :=
       [("name", .string plan.distributionName),
        ("version", .string info.version),
        ("description", .string (info.title ++ " RPC Client.")),
        ("authors", .list [info.contactName ++ " <" ++ info.contactEmail ++ ">"]),
        ("readme", .string "README.md")] ++
       (info.license.map fun license ↦ [("license", Toml.Value.string license)]).getD [] },
   { header := "[[tool.poetry.packages]]"
     entries := [("include", .string plan.packageName), ("from", .string "src")] },
   { header := "[tool.poetry.dependencies]"
     entries :=
       [("python", .string "^3.9"),
        ("pydantic", .string "^2.0.3"),
        ("jsonrpc2-objects", .string "^3.0.0"),
        ("jsonrpc2-pyclient", .string "^2.1.1")] },
   { header := "[build-system]"
     entries :=
       [("requires", .list ["poetry-core"]),
        ("build-backend", .string "poetry.core.masonry.api")] }]

/-- The client of the example: the first one. -/
def exampleClass (plan : Plan) : String :=
  ((PythonClient.clientsOf plan).head?.map PythonClient.ClientClass.name).getD
    (plan.clientName ++ "HTTPClient")

/-- What is to say about clients whose calls are awaited. -/
def awaitedRemark? (plan : Plan) : Option String :=
  ((PythonClient.clientsOf plan).find? (·.style == .awaited)).map fun c ↦
    "`" ++ c.name ++ "` exposes the same methods as coroutines, to be awaited."

/-- The page of a package. -/
def page (plan : Plan) : Readme.Page where
  language := "Python"
  title := plan.interface.info.title
  version := plan.interface.info.version
  description := plan.interface.info.description
  install := "pip install " ++ plan.distributionName
  fence := "python"
  usage :=
    [.line ("from " ++ plan.packageName ++ " import " ++ exampleClass plan),
      .blank,
      .line ("client = " ++ exampleClass plan ++ "()")]
  remark := awaitedRemark? plan
  rows := Readme.rows Naming.pythonIdentifier plan.root

/-- The files that describe the package. -/
def projectFiles (plan : Plan) : List SourceFile :=
  [{ path := ["pyproject.toml"], contents := Toml.render (projectTables plan) },
   { path := ["README.md"], contents := Readme.render (page plan) }]

/-- The commands of a stage. -/
def tools : ToolStage → List Tool
  | .format => [{ program := "black", args := ["src"] }]
  | .build => [{ program := "poetry", args := ["build"] }]

end RpcForge.PythonPackage

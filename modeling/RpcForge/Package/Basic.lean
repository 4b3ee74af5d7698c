import RpcForge.Package.PythonPackage
import RpcForge.Package.TypeScriptPackage

/-!
# Packages

The package for a target language: its directory, its files, and the tools that are meant to run
over it.
-/

namespace RpcForge.Package

/-- The clients of a package, unless members of a group have the same name. -/
def clientFiles : Language → Plan → Except GenerationError (List SourceFile)
  | .python => PythonPackage.clientFiles
  | .typeScript => TypeScriptPackage.clientFiles

/-- The models of a package; no file where there are no models. -/
def modelFiles : Language → Plan → List SourceFile
  | .python => PythonPackage.modelFiles
  | .typeScript => TypeScriptPackage.modelFiles

/-- The files that describe a package. -/
def projectFiles : Language → Plan → List SourceFile
  | .python => PythonPackage.projectFiles
  | .typeScript => TypeScriptPackage.projectFiles

/-- All files of a package: clients, models, and what describes it. -/
def files (language : Language) (plan : Plan) : Except GenerationError (List SourceFile) :=
  (clientFiles language plan).map fun clients ↦
    clients ++ modelFiles language plan ++ projectFiles language plan

/-- The commands of a stage. -/
def tools : Language → ToolStage → List Tool
  | .python => PythonPackage.tools
  | .typeScript => TypeScriptPackage.tools

/-- The directory of a package, from the directory of all packages on. -/
def directory (language : Language) (plan : Plan) : List String :=
  [language.name, plan.packageName]

end RpcForge.Package

import RpcForge.Package.Basic
import RpcForge.Run.Error

/-!
# Generating packages

A run makes one plan from a document and then takes the target languages in turn. The files of a
package are all made before what an earlier run has written is removed, and tools run only over a
package that was written. A language that fails does not keep the others from their turn.
-/

namespace RpcForge

/-- A command that was to be run over a package. -/
structure ToolCall where
  /-- The command as one types it. -/
  command : String
  /-- The directory of the package. -/
  directory : String
deriving DecidableEq, Repr

/-- The tools of a run. They touch no files, so all there is to a call is what comes of it. -/
structure Toolbox where
  /-- What comes of a tool over the package in a directory. -/
  call : Tool → String → Except RunError Unit
  /-- Whether the calls are recorded. -/
  records : Bool

namespace Toolbox

/-- Tools that are passed over. -/
def idle : Toolbox where
  call _ _ := .ok ()
  records := false

/-- The error of a tool that fails where tools are recorded. -/
def failure (tool : Tool) : RunError :=
  .tool tool.commandLine "exit status: 1" "recorded failure"

/-- Tools that are recorded; those for directories with a given text in their path fail. -/
def recording (failing : Option String) : Toolbox where
  call tool directory :=
    if failing.any (Text.hasPart directory) then .error (failure tool) else .ok ()
  records := true

/-- The calls that are recorded for a tool. -/
def record (toolbox : Toolbox) (directory : String) (tool : Tool) : List ToolCall :=
  if toolbox.records then [⟨tool.commandLine, directory⟩] else []

/-- Run tools in order up to the first one that fails. -/
def run (toolbox : Toolbox) (directory : String) : List Tool → List ToolCall × Except RunError Unit
  | [] => ([], .ok ())
  | tool :: tools =>
    match toolbox.call tool directory with
    | .error e => (toolbox.record directory tool, .error e)
    | .ok () =>
      let (calls, result) := run toolbox directory tools
      (toolbox.record directory tool ++ calls, result)

end Toolbox

/-- What became of a target language. -/
structure Outcome where
  /-- The language. -/
  language : Language
  /-- The directory of the package. -/
  directory : String
  /-- The number of files written. -/
  written : Nat
  /-- What went wrong. -/
  error : Option RunError
deriving DecidableEq, Repr

namespace Outcome

/-- Whether nothing went wrong. -/
def isSuccess (outcome : Outcome) : Bool :=
  outcome.error.isNone

/-- One line about the outcome. -/
def summary (outcome : Outcome) : String :=
  match outcome.error with
  | none =>
    "✅ Generated " ++ outcome.language.name ++ " client in " ++ outcome.directory ++ " (" ++
      toString outcome.written ++ " files)"
  | some error =>
    "❌ " ++ outcome.language.name ++ " client in " ++ outcome.directory ++
      " failed after writing " ++ toString outcome.written ++ " files: " ++ error.message

end Outcome

/-- The part of a run for one target language: what became of it, and the tools that were called. -/
structure Turn where
  /-- What became of the language. -/
  outcome : Outcome
  /-- The calls of tools, in order. -/
  calls : List ToolCall
deriving DecidableEq, Repr

/-- What became of all target languages, in order. -/
structure Report where
  /-- The turns of the languages. -/
  turns : List Turn
deriving DecidableEq, Repr

namespace Report

/-- What became of the languages. -/
def outcomes (report : Report) : List Outcome :=
  report.turns.map Turn.outcome

/-- The calls of tools. -/
def calls (report : Report) : List ToolCall :=
  report.turns.flatMap Turn.calls

/-- Whether nothing went wrong. -/
def isSuccess (report : Report) : Bool :=
  report.outcomes.all Outcome.isSuccess

/-- The names of the languages for which something went wrong. -/
def failed (report : Report) : List String :=
  (report.outcomes.filter (!·.isSuccess)).map fun outcome ↦ outcome.language.name

/-- The error of a run in which something went wrong. -/
def error? (report : Report) : Option RunError :=
  if report.isSuccess then none else some (.languages report.failed)

end Report

namespace Generation

/-- The path of a file of a package whose directory has a given path. -/
def filePath (directory : String) (file : SourceFile) : String :=
  joinPaths directory (pathText file.path)

/-- The path of the directory of a file of a package. -/
def parentPath (directory : String) (file : SourceFile) : String :=
  match file.path.dropLast with
  | [] => directory
  | parents => joinPaths directory (pathText parents)

/-- Write the files of a package one by one into a directory. -/
def writeFiles (directory : String) (tree : FileTree) :
    List SourceFile → FileTree × Except RunError Unit
  | [] => (tree, .ok ())
  | file :: files =>
    match tree.makeDirectories (parentPath directory file) with
    | (tree, .error e) => (tree, .error (.directory (parentPath directory file) e))
    | (tree, .ok ()) =>
      match tree.write (filePath directory file) file.contents with
      | .error e => (tree, .error (.writing (filePath directory file) e))
      | .ok tree => writeFiles directory tree files

/-- Write a package in place of what lies in its directory. -/
def writePackage (directory : String) (tree : FileTree) (files : List SourceFile) :
    FileTree × Except RunError Unit :=
  if tree.holds directory then
    match tree.removeDirectory directory with
    | .error e => (tree, .error (.removal directory e))
    | .ok tree => writeFiles directory tree files
  else writeFiles directory tree files

/-- The directory of the package for a target language. -/
def packageDirectory (settings : Settings) (plan : Plan) (language : Language) : String :=
  joinPaths settings.output.directory (pathText (Package.directory language plan))

/-- The stages that run. -/
def stages (settings : ToolSettings) : List ToolStage :=
  (if settings.format then [.format] else []) ++ (if settings.build then [.build] else [])

/-- The tools that run over the package for a target language. -/
def toolsFor (settings : ToolSettings) (language : Language) : List Tool :=
  (stages settings).flatMap (Package.tools language)

/-- The error in a result. -/
def errorOf {α : Type} : Except RunError α → Option RunError
  | .ok _ => none
  | .error e => some e

/-- The turn of a target language. -/
def takeTurn (settings : Settings) (toolbox : Toolbox) (plan : Plan) (tree : FileTree)
    (language : Language) : FileTree × Turn :=
  let directory := packageDirectory settings plan language
  match Package.files language plan with
  | .error e => (tree, ⟨⟨language, directory, 0, some (.generation e)⟩, []⟩)
  | .ok files =>
    match writePackage directory tree files with
    | (tree, .error e) => (tree, ⟨⟨language, directory, 0, some e⟩, []⟩)
    | (tree, .ok ()) =>
      let (calls, result) := toolbox.run directory (toolsFor settings.tools language)
      (tree, ⟨⟨language, directory, files.length, errorOf result⟩, calls⟩)

/-- The turns of target languages. -/
def takeTurns (settings : Settings) (toolbox : Toolbox) (plan : Plan) (tree : FileTree) :
    List Language → FileTree × List Turn
  | [] => (tree, [])
  | language :: languages =>
    let (tree, turn) := takeTurn settings toolbox plan tree language
    let (tree, turns) := takeTurns settings toolbox plan tree languages
    (tree, turn :: turns)

/-- The plan of a run. -/
def planFor (settings : Settings) (document : Document) : Except GenerationError Plan :=
  (Plan.ofDocument document).map fun plan ↦
    let plan := plan.withTransports settings.target.transports
    match settings.target.clientUrl with
    | some url => plan.withClientUrl url
    | none => plan

/-- Generate the packages for a document. -/
def generate (settings : Settings) (toolbox : Toolbox) (document : Document) (tree : FileTree) :
    Except RunError (FileTree × Report) :=
  match planFor settings document with
  | .error e => .error (.generation e)
  | .ok plan =>
    let (tree, turns) := takeTurns settings toolbox plan tree settings.target.languages
    .ok (tree, ⟨turns⟩)

end Generation

end RpcForge

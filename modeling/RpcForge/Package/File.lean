/-!
# Files and tools

What a package consists of, and the external commands that are meant to run over it. Nothing is
written and nothing is run here.
-/

namespace RpcForge

/-- A file of a package. -/
structure SourceFile where
  /-- The names of the directories that lead to the file, and its own, from the package on. -/
  path : List String
  /-- The text. -/
  contents : String
deriving DecidableEq, Repr, Inhabited

/-- A path as one text. -/
def pathText (path : List String) : String :=
  "/".intercalate path

/-- When a tool runs. -/
inductive ToolStage where
  /-- After the files are written: formatters. -/
  | format
  /-- After formatting: the build of the package. -/
  | build
deriving DecidableEq, Repr

/-- An external command. -/
structure Tool where
  /-- The name of the program. -/
  program : String
  /-- The arguments. -/
  args : List String
  /-- The directory to work in, from that of the package on. -/
  workingDirectory : String := "."
deriving DecidableEq, Repr, Inhabited

/-- A command as one types it. -/
def Tool.commandLine (tool : Tool) : String :=
  " ".intercalate (tool.program :: tool.args)

end RpcForge

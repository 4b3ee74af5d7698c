import RpcForge.Interface.Error
import RpcForge.Run.FileTree
import RpcForge.Run.Settings

/-!
# Errors of a run

Why a run of the program fails, or what becomes of a single target language.
-/

namespace RpcForge

/-- Why a run fails. -/
inductive RunError where
  /-- The file of the document cannot be read. -/
  | unreadable (path : String) (cause : FileError)
  /-- The document cannot be read. -/
  | parse (input message : String)
  /-- The document is not valid. -/
  | invalid (error : DocumentError)
  /-- The document cannot be fetched. -/
  | discovery (url message : String)
  /-- The settings make no sense. -/
  | settings (error : SettingsError)
  /-- No client can be generated. -/
  | generation (error : GenerationError)
  /-- What an earlier run has written cannot be removed. -/
  | removal (path : String) (cause : FileError)
  /-- A directory cannot be made. -/
  | directory (path : String) (cause : FileError)
  /-- A file cannot be written. -/
  | writing (path : String) (cause : FileError)
  /-- A tool fails. -/
  | tool (command status output : String)
  /-- Target languages have failed. -/
  | languages (names : List String)
deriving DecidableEq, Repr

namespace RunError

/-- The message of an error. -/
def message : RunError → String
  | .unreadable path cause => "Failed to read OpenRPC file at " ++ path ++ ": " ++ cause.message
  | .parse input message => "Failed to parse OpenRPC document " ++ input ++ ": " ++ message
  | .invalid error => "Invalid OpenRPC document: " ++ error.message
  | .discovery url message => "rpc.discover against " ++ url ++ " failed: " ++ message
  | .settings error => "Configuration error: " ++ error.message
  | .generation error => error.message
  | .removal path cause => "Failed to remove previous output " ++ path ++ ": " ++ cause.message
  | .directory path cause => "Failed to create output directory " ++ path ++ ": " ++ cause.message
  | .writing path cause => "Failed to write generated file " ++ path ++ ": " ++ cause.message
  | .tool command status output => "`" ++ command ++ "` exited with " ++ status ++ ": " ++ output
  | .languages names => "Generation failed for: " ++ ", ".intercalate names

end RunError

end RpcForge

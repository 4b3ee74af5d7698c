import RpcForge.Run.CommandLine
import RpcForge.Run.Generation
import RpcForge.Run.Loading

/-!
# The program

Reads the document, generates the packages as a value, and puts them on disk. Tools are not run; the
commands to run are printed.
-/

namespace RpcForge.Program

/-- How the program is used. -/
def usage : String :=
  "Usage: openrpc-codegen generate --input <FILE> [--output <DIR>] [--lang <LANG>]... " ++
    "[--transport <TRANSPORT>]... [--url <URL>] [--no-format] [--build] [--config <FILE>] " ++
    "[--verbose]"

/-- What is said about a command line that yields no command. -/
def complaint : CommandError → String
  | .help => usage
  | .version => "openrpc-codegen 0.1.0"
  | .nothing => usage
  | .unknownCommand => "error: unrecognized subcommand"
  | .unknownArgument => "error: unexpected argument found"
  | .repeated => "error: the argument cannot be used multiple times"
  | .noValue => "error: a value is required"
  | .badChoice => "error: invalid value"
  | .unexpectedValue => "error: unexpected value found"
  | .missingArgument => "error: the required argument --input was not provided"

/-- Say that the run has failed. -/
def report (message : String) : IO UInt32 := do
  IO.eprintln ("❌ Error: " ++ message)
  return 1

/-- Remove what lies in the directory of a package, if there is anything. -/
def removePackage (directory : String) : IO Unit := do
  try IO.FS.removeDirAll directory
  catch
    | .noFileOrDirectory _ _ _ => return
    | e =>
      throw (IO.userError
        ("Failed to remove previous output " ++ directory ++ ": " ++ toString e))

/-- Put the package in a directory of a tree on disk in place of what lies there. -/
def install (tree : FileTree) (directory : String) : IO Unit := do
  let place ← IO.ofExcept ((tree.resolve directory).mapError FileError.message)
  removePackage directory
  for (path, contents) in tree.files do
    if path.isWithin place then
      let file : SourceFile := ⟨path.drop place.length, contents⟩
      IO.FS.createDirAll (Generation.parentPath directory file)
      IO.FS.writeFile (Generation.filePath directory file) contents

/-- Put what a turn has left in the directory of its package on disk, and say what became of the
language. The result is whether nothing went wrong. -/
def conclude (tree : FileTree) (turn : Turn) : IO Bool := do
  let outcome := turn.outcome
  try
    if tree.holds outcome.directory then install tree outcome.directory
  catch e =>
    IO.eprintln ("❌ " ++ outcome.language.name ++ " client in " ++ outcome.directory ++
      " failed: " ++ toString e)
    return false
  for call in turn.calls do
    IO.println ("To run in " ++ call.directory ++ ": " ++ call.command)
  if outcome.isSuccess then IO.println outcome.summary else IO.eprintln outcome.summary
  return outcome.isSuccess

/-- Put the outcome of a run on disk and say what became of each language. -/
def finish (tree : FileTree) (result : Report) : IO UInt32 := do
  let failed ← result.turns.filterM fun turn ↦ return !(← conclude tree turn)
  if failed.isEmpty then return 0
  report (RunError.message (.languages (failed.map fun turn ↦ turn.outcome.language.name)))

/-- A tree that holds the file under a path alone, or nothing where no file can be read. -/
def fetch (path : String) : IO FileTree := do
  try return FileTree.plant {} path (← IO.FS.readFile path)
  catch _ => return {}

/-- Generate the packages for a document in a file. -/
def generate (settings : Settings) (input : String) : IO UInt32 := do
  let source ← if isRemote input then pure {} else fetch input
  match Document.loadFrom source input with
  | .error e => report e.message
  | .ok document =>
    match Generation.generate settings (.recording none) document {} with
    | .error e => report e.message
    | .ok (tree, result) => finish tree result

/-- Run the program with the arguments of a command line. -/
def run (args : List String) : IO UInt32 := do
  match Arguments.parse args with
  | .error .help => IO.println usage; return 0
  | .error .version => IO.println (complaint .version); return 0
  | .error e => IO.eprintln (complaint e); return 2
  | .ok arguments =>
    match arguments.settings with
    | .error e => report (RunError.message (.settings e))
    | .ok settings => generate settings (arguments.input.getD "")

end RpcForge.Program

/-- Run the program with the arguments of a command line. -/
def main (args : List String) : IO UInt32 :=
  RpcForge.Program.run args

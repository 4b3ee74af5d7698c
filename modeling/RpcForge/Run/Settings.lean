import RpcForge.Client.Choice
import RpcForge.Json.Printer
import RpcForge.Json.Record
import RpcForge.Text.Pieces

/-!
# Settings

Where packages are written, what is generated, which tools run over it, and what is logged. Every
setting has a default.
-/

namespace RpcForge

open RpcForge.Json

/-- Where packages are written. -/
structure OutputSettings where
  /-- The directory of all packages. -/
  directory : String := "./generated"
deriving DecidableEq, Repr, Inhabited

/-- What is generated. -/
structure TargetSettings where
  /-- The target languages, in order. -/
  languages : List Language := [.python, .typeScript]
  /-- The transports, in order. -/
  transports : List Transport := [.http]
  /-- The address that clients use by default. -/
  clientUrl : Option String := none
deriving DecidableEq, Repr, Inhabited

/-- Which tools run. -/
structure ToolSettings where
  /-- Whether formatters run. -/
  format : Bool := true
  /-- Whether packages are built. -/
  build : Bool := false
deriving DecidableEq, Repr, Inhabited

/-- What is logged. -/
structure LogSettings where
  /-- A level, or a filter as it is. -/
  level : String := "info"
  /-- The format. -/
  format : String := "pretty"
deriving DecidableEq, Repr, Inhabited

/-- All settings. -/
structure Settings where
  /-- Where packages are written. -/
  output : OutputSettings := {}
  /-- What is generated. -/
  target : TargetSettings := {}
  /-- Which tools run. -/
  tools : ToolSettings := {}
  /-- What is logged. -/
  logging : LogSettings := {}
deriving DecidableEq, Repr, Inhabited

/-- What is wrong with settings. -/
inductive SettingsError where
  /-- The directory of all packages is empty. -/
  | noDirectory
  /-- No target language is chosen. -/
  | noLanguage
  /-- No transport is chosen. -/
  | noTransport
  /-- The address that clients use by default has no known scheme. -/
  | badUrl (url : String)
  /-- The level is unknown. -/
  | badLevel (level : String)
  /-- The format is unknown. -/
  | badFormat (format : String)
  /-- There is no file with settings under a path. -/
  | missingFile (path : String)
deriving DecidableEq, Repr

namespace Settings

/-- The schemes that the address of a client may have. -/
def urlSchemes : List String := ["http://", "https://", "ws://", "wss://"]

/-- The levels of logging. -/
def levels : List String := ["trace", "debug", "info", "warn", "error"]

/-- The formats of logging. -/
def formats : List String := ["pretty", "compact"]

end Settings

/-- Texts between brackets, as messages list what is allowed. -/
private def allowed (texts : List String) : String :=
  "[" ++ ", ".intercalate (texts.map Text.quote) ++ "]"

/-- The message of an error. -/
def SettingsError.message : SettingsError → String
  | .noDirectory => "Output directory cannot be empty"
  | .noLanguage => "At least one target language must be configured"
  | .noTransport => "At least one transport must be configured"
  | .badUrl url =>
    "Client URL '" ++ url ++ "' must start with one of " ++ allowed Settings.urlSchemes
  | .badLevel level =>
    "Invalid log level '" ++ level ++ "'. Must be one of: " ++ allowed Settings.levels
  | .badFormat format =>
    "Invalid log format '" ++ format ++ "'. Must be one of: " ++ allowed Settings.formats
  | .missingFile path =>
    "Failed to build configuration: configuration file \"" ++ path ++ "\" not found"

namespace LogSettings

/-- Whether the level is a filter as it is. -/
def isFilter (logging : LogSettings) : Bool :=
  Text.hasChar logging.level '=' || Text.hasChar logging.level ','

/-- The filter for the log. -/
def filter (logging : LogSettings) : String :=
  if logging.isFilter then logging.level
  else
    "openrpc_client_generator=" ++ logging.level ++ ",openrpc_codegen=" ++ logging.level ++ ",warn"

end LogSettings

namespace Settings

/-- The settings make sense. Levels and formats may be written in any case of their letters; none of
these letters is the lower case of one outside of ASCII. -/
def check (settings : Settings) : Except SettingsError Unit := do
  if settings.output.directory.isEmpty then throw .noDirectory
  if settings.target.languages.isEmpty then throw .noLanguage
  if settings.target.transports.isEmpty then throw .noTransport
  if let some url := settings.target.clientUrl then
    unless urlSchemes.any (Text.startsWith url) do throw (.badUrl url)
  unless settings.logging.isFilter || levels.contains (folded settings.logging.level) do
    throw (.badLevel settings.logging.level)
  unless formats.contains (folded settings.logging.format) do
    throw (.badFormat settings.logging.format)

/-! ## Reading and writing -/

/-- The names under which target languages are read. -/
def languageNames : List (String × Language) :=
  [("python", .python), ("ts", .typeScript), ("typescript", .typeScript)]

/-- The names under which transports are read. -/
def transportNames : List (String × Transport) :=
  [("http", .http), ("websocket", .ws), ("ws", .ws)]

/-- Read where packages are written. -/
def readOutput : Value → Except ShapeError OutputSettings :=
  Record.read "OutputConfig"
    [⟨"dir", fun s v ↦ do return { s with directory := ← Record.path v }⟩] {}

/-- Read what is generated. -/
def readTarget : Value → Except ShapeError TargetSettings :=
  Record.read "GenerateConfig"
    [⟨"languages", fun s v ↦ do
        return { s with languages := ← Record.list (Record.choice languageNames) v }⟩,
      ⟨"transports", fun s v ↦ do
        return { s with transports := ← Record.list (Record.choice transportNames) v }⟩,
      ⟨"client_url", fun s v ↦ do return { s with clientUrl := ← Record.optional Record.text v }⟩]
    {}

/-- Read which tools run. -/
def readTools : Value → Except ShapeError ToolSettings :=
  Record.read "ToolsConfig"
    [⟨"format", fun s v ↦ do return { s with format := ← Record.flag v }⟩,
      ⟨"build", fun s v ↦ do return { s with build := ← Record.flag v }⟩] {}

/-- Read what is logged. -/
def readLogging : Value → Except ShapeError LogSettings :=
  Record.read "LoggingConfig"
    [⟨"level", fun s v ↦ do return { s with level := ← Record.text v }⟩,
      ⟨"format", fun s v ↦ do return { s with format := ← Record.text v }⟩] {}

/-- Read settings; what is left out keeps its default. -/
def ofValue : Value → Except ShapeError Settings :=
  Record.read "Settings"
    [⟨"output", fun s v ↦ do return { s with output := ← readOutput v }⟩,
      ⟨"generate", fun s v ↦ do return { s with target := ← readTarget v }⟩,
      ⟨"tools", fun s v ↦ do return { s with tools := ← readTools v }⟩,
      ⟨"logging", fun s v ↦ do return { s with logging := ← readLogging v }⟩] {}

/-- Settings as an object. -/
def toValue (settings : Settings) : Value :=
  .object
    [("output", .object [("dir", .string settings.output.directory)]),
     ("generate", .object
       [("languages", .ofStrings (settings.target.languages.map Language.name)),
        ("transports", .ofStrings (settings.target.transports.map Transport.name)),
        ("client_url", (settings.target.clientUrl.map Value.string).getD .null)]),
     ("tools", .object
       [("format", .bool settings.tools.format), ("build", .bool settings.tools.build)]),
     ("logging", .object
       [("level", .string settings.logging.level), ("format", .string settings.logging.format)])]

end Settings

end RpcForge

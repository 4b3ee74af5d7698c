import RpcForge.Run.Error

/-!
# The command line

The one command `generate` with its options. An option that takes a value keeps it back until the
next option or the end, so a value is judged only then, after anything that is wrong with the shape
of the line up to there.
-/

namespace RpcForge

/-- Why a command line yields no command. -/
inductive CommandError where
  /-- Help is asked for. -/
  | help
  /-- The version is asked for. -/
  | version
  /-- Nothing is asked for, which is answered by help. -/
  | nothing
  /-- There is no such command. -/
  | unknownCommand
  /-- There is no such option, or no argument is expected. -/
  | unknownArgument
  /-- An option is given twice that may be given once. -/
  | repeated
  /-- An option lacks its value, or has an empty one. -/
  | noValue
  /-- The value of an option names no choice. -/
  | badChoice
  /-- An option that takes no value is given one. -/
  | unexpectedValue
  /-- An option that has to be given is not. -/
  | missingArgument
deriving DecidableEq, Repr

/-- An option. -/
inductive CommandOption where
  /-- The document. -/
  | input
  /-- The directory of all packages. -/
  | output
  /-- A target language. -/
  | language
  /-- A transport. -/
  | transport
  /-- The address that clients use by default. -/
  | url
  /-- The file with settings. -/
  | config
  /-- Do not run formatters. -/
  | noFormat
  /-- Build the packages. -/
  | build
  /-- Say more. -/
  | verbose
  /-- Help. -/
  | help
deriving DecidableEq, Repr

namespace CommandOption

/-- The options by their long names. -/
def longNames : List (String × CommandOption) :=
  [("input", .input), ("output", .output), ("lang", .language), ("transport", .transport),
    ("url", .url), ("config", .config), ("no-format", .noFormat), ("build", .build),
    ("verbose", .verbose), ("help", .help)]

/-- The options by their letters. -/
def letters : List (Char × CommandOption) :=
  [('i', .input), ('o', .output), ('l', .language), ('t', .transport), ('u', .url), ('c', .config),
    ('v', .verbose), ('h', .help)]

/-- Whether an option takes a value. -/
def takesValue : CommandOption → Bool
  | .input => true
  | .output => true
  | .language => true
  | .transport => true
  | .url => true
  | .config => true
  | .noFormat => false
  | .build => false
  | .verbose => false
  | .help => false

end CommandOption

/-- What the options say. -/
structure Arguments where
  /-- The document. -/
  input : Option String := none
  /-- The directory of all packages. -/
  output : Option String := none
  /-- The address that clients use by default. -/
  url : Option String := none
  /-- The file with settings. -/
  config : Option String := none
  /-- The target languages. -/
  languages : List Language := []
  /-- The transports. -/
  transports : List Transport := []
  /-- Whether formatters are not to run. -/
  noFormat : Bool := false
  /-- Whether packages are to be built. -/
  build : Bool := false
  /-- Whether to say more. -/
  verbose : Bool := false
deriving DecidableEq, Repr, Inhabited

/-- The outcome of reading a part of a command line. -/
abbrev Parsing (α : Type) := Except CommandError α

namespace Arguments

/-- Set what is not set yet. -/
def once (old : Option String) (text : String) : Parsing (Option String) :=
  if old.isSome then .error .repeated else .ok (some text)

/-- Set the path that is not set yet; it is not empty. -/
def oncePath (old : Option String) (text : String) : Parsing (Option String) :=
  if old.isSome then .error .repeated
  else if text.isEmpty then .error .noValue
  else .ok (some text)

/-- Turn on what is off yet. -/
def turnOn (old : Bool) : Parsing Bool :=
  if old then .error .repeated else .ok true

/-- Give an option its value. -/
def setValue (a : Arguments) (text : String) : CommandOption → Parsing Arguments
  | .input => (once a.input text).map fun v ↦ { a with input := v }
  | .output => (oncePath a.output text).map fun v ↦ { a with output := v }
  | .url => (once a.url text).map fun v ↦ { a with url := v }
  | .config => (oncePath a.config text).map fun v ↦ { a with config := v }
  | .language =>
    match Language.ofText text with
    | .ok l => .ok { a with languages := a.languages ++ [l] }
    | .error _ => .error .badChoice
  | .transport =>
    match Transport.ofText text with
    | .ok t => .ok { a with transports := a.transports ++ [t] }
    | .error _ => .error .badChoice
  | .noFormat => .error .unexpectedValue
  | .build => .error .unexpectedValue
  | .verbose => .error .unexpectedValue
  | .help => .error .unexpectedValue

/-- Give an option that takes no value. -/
def setFlag (a : Arguments) : CommandOption → Parsing Arguments
  | .noFormat => (turnOn a.noFormat).map fun b ↦ { a with noFormat := b }
  | .build => (turnOn a.build).map fun b ↦ { a with build := b }
  | .verbose => (turnOn a.verbose).map fun b ↦ { a with verbose := b }
  | .help => .error .help
  | .input => .error .noValue
  | .output => .error .noValue
  | .language => .error .noValue
  | .transport => .error .noValue
  | .url => .error .noValue
  | .config => .error .noValue

end Arguments

/-- A command line that is read in part. -/
structure CommandState where
  /-- What the options before the last one say. -/
  arguments : Arguments := {}
  /-- The last option, if it takes a value, and the value if it has one. -/
  pending : Option (CommandOption × Option String) := none

namespace CommandState

/-- Judge the last option. -/
def settle (s : CommandState) : Parsing Arguments :=
  match s.pending with
  | none => .ok s.arguments
  | some (_, none) => .error .noValue
  | some (option, some text) => s.arguments.setValue text option

/-- Go on with an option that takes a value, which may be given with it. -/
def withOption (s : CommandState) (option : CommandOption) (value : Option String) :
    Parsing CommandState := do
  let arguments ← s.settle
  match value with
  | some text => return { arguments := ← arguments.setValue text option }
  | none => return { arguments := arguments, pending := some (option, none) }

/-- Go on with an option that takes no value. -/
def withFlag (s : CommandState) (option : CommandOption) : Parsing CommandState := do
  let arguments ← s.settle
  return { arguments := ← arguments.setFlag option }

/-- Go on with a long option. -/
def withLong (s : CommandState) (text : String) : Parsing CommandState :=
  let (name, value) := match Text.cut? '=' text with
    | some (name, v) => (name, some v)
    | none => (text, none)
  match CommandOption.longNames.lookup name with
  | none => .error .unknownArgument
  | some option =>
    if option.takesValue then s.withOption option value
    else if value.isSome then .error .unexpectedValue
    else s.withFlag option

/-- The value that is given together with a letter: what stands behind it, without a sign of
equality in front. -/
def attached : List Char → Option String
  | [] => none
  | '=' :: cs => some (String.ofList cs)
  | cs => some (String.ofList cs)

/-- Go on with options by their letters. -/
def withLetters (s : CommandState) : List Char → Parsing CommandState
  | [] => .ok s
  | c :: cs =>
    match CommandOption.letters.lookup c with
    | none => .error .unknownArgument
    | some option =>
      if option.takesValue then s.withOption option (attached cs)
      else do
        let s ← s.withFlag option
        withLetters s cs

/-- Go on with an argument that is no option: it is the value of the last option, if that lacks
one. -/
def withPlain (s : CommandState) (text : String) : Parsing CommandState :=
  match s.pending with
  | some (option, none) => .ok { s with pending := some (option, some text) }
  | _ => .error .unknownArgument

/-- Go on with one argument. -/
def withArgument (s : CommandState) (text : String) : Parsing CommandState :=
  match text.toList with
  | '-' :: '-' :: rest => s.withLong (String.ofList rest)
  | '-' :: c :: rest => s.withLetters (c :: rest)
  | _ => s.withPlain text

end CommandState

namespace Arguments

/-- Read the arguments of the command. Behind two hyphens nothing may follow. -/
def readFrom (s : CommandState) : List String → Parsing Arguments
  | [] => s.settle
  | "--" :: rest => if rest.isEmpty then s.settle else .error .unknownArgument
  | text :: rest => do
    let s ← s.withArgument text
    readFrom s rest

/-- Read the arguments of the command, among which the document has to be. -/
def read (texts : List String) : Parsing Arguments := do
  let arguments ← readFrom {} texts
  if arguments.input.isNone then throw .missingArgument
  return arguments

/-- The commands. -/
def commands : List String := ["generate", "help"]

/-- Answer a question for help on a command. -/
def readHelp : List String → Parsing Arguments
  | [] => .error .help
  | [name] => .error (if commands.contains name then .help else .unknownCommand)
  | _ => .error .unknownCommand

/-- Read an option that stands in place of a command. -/
def readTopOption (text : String) : Parsing Arguments :=
  match text.toList with
  | '-' :: '-' :: rest =>
    let (name, value) := rest.span (· != '=')
    if name == "help".toList || name == "version".toList then
      if value.isEmpty then .error (if name == "help".toList then .help else .version)
      else .error .unexpectedValue
    else .error .unknownArgument
  | '-' :: 'h' :: _ => .error .help
  | '-' :: 'V' :: _ => .error .version
  | '-' :: _ :: _ => .error .unknownArgument
  | _ => .error .unknownCommand

/-- Read a command line behind the name of the program. -/
def parse : List String → Parsing Arguments
  | [] => .error .nothing
  | ["--"] => .error .nothing
  | "--" :: name :: _ =>
    .error (if commands.contains name then .unknownArgument else .unknownCommand)
  | "generate" :: rest => read rest
  | "help" :: rest => readHelp rest
  | text :: _ => readTopOption text

/-- The settings with what the options say in place of defaults. No file with settings is there. -/
def settings (a : Arguments) : Except SettingsError Settings := do
  if let some path := a.config then throw (.missingFile path)
  let settings : Settings :=
    { output := { directory := a.output.getD ({} : OutputSettings).directory }
      target :=
        { languages :=
            if a.languages.isEmpty then ({} : TargetSettings).languages else a.languages.eraseDups
          transports :=
            if a.transports.isEmpty then ({} : TargetSettings).transports
            else a.transports.eraseDups
          clientUrl := a.url }
      tools := { format := !a.noFormat, build := a.build }
      logging := { level := if a.verbose then "debug" else ({} : LogSettings).level } }
  settings.check
  return settings

end Arguments

end RpcForge

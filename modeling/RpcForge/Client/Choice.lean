/-!
# Choices

The target languages and the transports that clients can be generated for, and the texts that choose
them on a command line.
-/

namespace RpcForge

/-- A text that names no choice. -/
inductive ChoiceError where
  /-- It should name a target language. -/
  | language (text : String)
  /-- It should name a transport. -/
  | transport (text : String)
deriving DecidableEq, Repr

/-- The message of an error. -/
def ChoiceError.message : ChoiceError → String
  | .language text => "unsupported language '" ++ text ++ "'"
  | .transport text => "unsupported transport '" ++ text ++ "'"

/-- A text with its ASCII letters in lower case. -/
def folded (text : String) : String :=
  String.ofList (text.toList.map Char.toLower)

/-- A target language. -/
inductive Language where
  /-- Python. -/
  | python
  /-- TypeScript. -/
  | typeScript
deriving DecidableEq, Repr, Inhabited

namespace Language

/-- The name of a language. -/
def name : Language → String
  | .python => "python"
  | .typeScript => "typescript"

/-- The texts that choose a language. -/
def choices : List (String × Language) :=
  [("python", .python), ("py", .python), ("typescript", .typeScript), ("ts", .typeScript)]

/-- The language that a text chooses, in any case of its letters. -/
def ofText (text : String) : Except ChoiceError Language :=
  match choices.lookup (folded text) with
  | some language => .ok language
  | none => .error (.language (folded text))

end Language

/-- A transport for requests. -/
inductive Transport where
  /-- Single requests. -/
  | http
  /-- A connection that stays open. -/
  | ws
deriving DecidableEq, Repr, Inhabited

namespace Transport

/-- The name of a transport. -/
def name : Transport → String
  | .http => "http"
  | .ws => "ws"

/-- The name of a transport inside the name of a class. -/
def classSuffix : Transport → String
  | .http => "HTTP"
  | .ws => "WS"

/-- The texts that choose a transport. -/
def choices : List (String × Transport) :=
  [("http", .http), ("ws", .ws), ("websocket", .ws)]

/-- The transport that a text chooses, in any case of its letters. -/
def ofText (text : String) : Except ChoiceError Transport :=
  match choices.lookup (folded text) with
  | some transport => .ok transport
  | none => .error (.transport (folded text))

end Transport

end RpcForge

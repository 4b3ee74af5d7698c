import RpcForge.Json.Shape
import RpcForge.Json.Token

/-!
# Reading JSON

A text is read against a shape, from left to right: a fault of the shape is reported where it is
met, before anything that is wrong with the text further on. Arrays and objects may be nested 127
deep. In a map a repeated key takes the last value; in a record a repeated field is a fault.
-/

namespace RpcForge.Json

/-- Why a text cannot be read. -/
inductive ReadError where
  /-- It is not JSON. -/
  | notJson (reason : SyntaxError)
  /-- Its value does not have the shape. -/
  | notShape (reason : ShapeError)
deriving DecidableEq, Repr

/-- The message of a read error. -/
def ReadError.message : ReadError → String
  | .notJson reason => reason.message
  | .notShape reason => reason.message

namespace Reader

/-- How deep arrays and objects may be nested. -/
def maxDepth : Nat := 127

/-- What comes next inside brackets: their end, or an element, with the tokens behind it or from
it. -/
inductive Next (α : Type) where
  /-- The closing bracket was read. -/
  | close (rest : List Token)
  /-- An element is next. -/
  | element (a : α) (rest : List Token)

/-- What comes next in an array, where `first` says that no item was read yet. -/
def nextItem (first : Bool) : List Token → Except SyntaxError (Next Unit)
  | [] => .error .endInArray
  | .closeArray :: rest => .ok (.close rest)
  | token :: rest =>
    if first then .ok (.element () (token :: rest))
    else match token, rest with
      | .comma, [] => .error .endInValue
      | .comma, .closeArray :: _ => .error .trailingComma
      | .comma, rest => .ok (.element () rest)
      | _, _ => .error .expectedCommaOrBracket

/-- The key that the tokens start with. -/
def keyAt : List Token → Except SyntaxError (Next String)
  | .string key :: rest => .ok (.element key rest)
  | .brokenString reason :: _ => .error reason
  | _ => .error .keyNotString

/-- What comes next in an object, where `first` says that no member was read yet. -/
def nextKey (first : Bool) : List Token → Except SyntaxError (Next String)
  | [] => .error .endInObject
  | .closeObject :: rest => .ok (.close rest)
  | token :: rest =>
    if first then keyAt (token :: rest)
    else match token, rest with
      | .comma, [] => .error .endInValue
      | .comma, .closeObject :: _ => .error .trailingComma
      | .comma, rest => keyAt rest
      | _, _ => .error .expectedCommaOrBrace

/-- The tokens behind a colon. -/
def afterColon : List Token → Except SyntaxError (List Token)
  | .colon :: rest => .ok rest
  | [] => .error .endInObject
  | _ => .error .expectedColon

/-- What an object that is being read has to look like. -/
inductive ObjectShape (ρ : Type) where
  /-- Any keys, and values of one shape. -/
  | map (value : Shape ρ)
  /-- The fields of a record. -/
  | record (name : ρ)

variable {ρ : Type}

/-- The place of a member under a key, after the keys `seen` so far. -/
def ObjectShape.slot (g : Grammar ρ) (shape : ObjectShape ρ) (seen : List String) (key : String) :
    Except ShapeError (Shape ρ × Bool) :=
  match shape with
  | .map value => .ok (value, false)
  | .record name => g.slot name seen key

/-- What an object lacks once all its keys are known. -/
def ObjectShape.missing? (g : Grammar ρ) (shape : ObjectShape ρ) (keys : List String) :
    Option ShapeError :=
  match shape with
  | .map _ => none
  | .record name => g.missing? name keys

/-- A value that has been read, unless it has a fault. -/
def judged (fault : Option ShapeError) (v : Value) (rest : List Token) :
    Except ReadError (Value × List Token) :=
  match fault with
  | some e => .error (.notShape e)
  | none => .ok (v, rest)

/-- Turn a syntax error into a read error. -/
def lift {α : Type} : Except SyntaxError α → Except ReadError α
  | .error reason => .error (.notJson reason)
  | .ok a => .ok a

mutual

/-- Read one value. `fuel` bounds the calls, and `depth` is how deep arrays and objects may still be
nested. -/
def value (g : Grammar ρ) (fuel depth : Nat) (shape : Shape ρ) (nullable : Bool)
    (tokens : List Token) : Except ReadError (Value × List Token) :=
  match fuel with
  | 0 => .error (.notJson .endInValue)
  | fuel + 1 =>
    let scalar (v : Value) (rest : List Token) :=
      judged (if nullable && v.isNull then none else g.error? shape v) v rest
    match tokens with
    | [] => .error (.notJson .endInValue)
    | .null :: rest => scalar .null rest
    | .bool b :: rest => scalar (.bool b) rest
    | .number n :: rest => scalar (.number n) rest
    | .string s :: rest => scalar (.string s) rest
    | .broken reason :: _ => .error (.notJson reason)
    | .brokenString reason :: _ => .error (.notJson reason)
    | .openArray :: rest =>
      match shape with
      | .any => array g fuel depth .any rest
      | .list item => array g fuel depth item rest
      | .whole name => do
        let (v, rest) ← array g fuel depth .any rest
        judged (g.error? (.whole name) v) v rest
      | shape => .error (.notShape (g.mismatch shape .array))
    | .openObject :: rest =>
      match shape with
      | .any => object g fuel depth (.map .any) rest
      | .map item => object g fuel depth (.map item) rest
      | .record name => object g fuel depth (.record name) rest
      | .whole name => do
        let (v, rest) ← object g fuel depth (.map .any) rest
        judged (g.error? (.whole name) v) v rest
      | shape => .error (.notShape (g.mismatch shape .object))
    | _ => .error (.notJson .expectedValue)
termination_by structural fuel

/-- Read the rest of an array whose bracket was read. -/
def array (g : Grammar ρ) (fuel depth : Nat) (item : Shape ρ) (tokens : List Token) :
    Except ReadError (Value × List Token) :=
  match fuel, depth with
  | 0, _ => .error (.notJson .endInValue)
  | _, 0 => .error (.notJson .tooDeep)
  | fuel + 1, depth + 1 => do
    let (vs, rest) ← items g fuel depth item true tokens
    return (.array vs, rest)
termination_by structural fuel

/-- Read the rest of an object whose brace was read. -/
def object (g : Grammar ρ) (fuel depth : Nat) (shape : ObjectShape ρ) (tokens : List Token) :
    Except ReadError (Value × List Token) :=
  match fuel, depth with
  | 0, _ => .error (.notJson .endInValue)
  | _, 0 => .error (.notJson .tooDeep)
  | fuel + 1, depth + 1 => do
    let (ms, rest) ← members g fuel depth shape [] tokens
    return (.object ms, rest)
termination_by structural fuel

/-- Read the rest of the items of an array. -/
def items (g : Grammar ρ) (fuel depth : Nat) (item : Shape ρ) (first : Bool)
    (tokens : List Token) : Except ReadError (List Value × List Token) :=
  match fuel with
  | 0 => .error (.notJson .endInValue)
  | fuel + 1 => do
    match ← lift (nextItem first tokens) with
    | .close rest => return ([], rest)
    | .element () rest =>
      let (v, rest) ← value g fuel depth item false rest
      let (vs, rest) ← items g fuel depth item false rest
      return (v :: vs, rest)
termination_by structural fuel

/-- Read the rest of the members of an object, after those read so far. -/
def members (g : Grammar ρ) (fuel depth : Nat) (shape : ObjectShape ρ) (done : Entries Value)
    (tokens : List Token) : Except ReadError (Entries Value × List Token) :=
  match fuel with
  | 0 => .error (.notJson .endInValue)
  | fuel + 1 => do
    match ← lift (nextKey done.isEmpty tokens) with
    | .close rest =>
      match shape.missing? g (Entries.keys done) with
      | some e => throw (.notShape e)
      | none => return (done, rest)
    | .element key rest =>
      match shape.slot g (Entries.keys done) key with
      | .error e => throw (.notShape e)
      | .ok (inner, nullable) =>
        let rest ← lift (afterColon rest)
        let (v, rest) ← value g fuel depth inner nullable rest
        members g fuel depth shape (Entries.insert done key v) rest
termination_by structural fuel

end

/-- Read a whole text against a shape. Every call but those that open an array or an object or go on
with its elements takes a token, so four calls for each token suffice. -/
def read (g : Grammar ρ) (shape : Shape ρ) (text : String) : Except ReadError Value := do
  let tokens := Token.ofChars text.toList
  match ← value g (4 * tokens.length + 4) maxDepth shape false tokens with
  | (v, []) => return v
  | (_, _ :: _) => throw (.notJson .trailingCharacters)

end Reader

/-- Read a text as a plain value. -/
def Value.parse (text : String) : Except ReadError Value :=
  Reader.read .plain .any text

end RpcForge.Json

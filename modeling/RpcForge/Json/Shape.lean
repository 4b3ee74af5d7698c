import RpcForge.Json.Printer

/-!
# Shapes of JSON values

What a value has to look like, as data. A shape asks for a plain value, a string, a truth value, a
list or a map of one shape, a record with named fields, or a part that is judged as a whole once it
has been read. A `Grammar` says what the records and the parts of one kind of document are.
`Shape.error?` finds the first fault of a value: the members of a record are looked at in the order
in which they are written, and only then a missing field is noticed.
-/

namespace RpcForge.Json

open RpcForge.Text (quoteVisibly)

/-- What a value is, as a message calls it. -/
inductive Kind where
  /-- The literal `null`. -/
  | null
  /-- A truth value. -/
  | bool (b : Bool)
  /-- A number. -/
  | number (n : Number)
  /-- A string. -/
  | string (s : String)
  /-- An array of any length. -/
  | array
  /-- An object of any length. -/
  | object
deriving DecidableEq, Repr

/-- What a value is. -/
def Value.kind : Value → Kind
  | .null => .null
  | .bool b => .bool b
  | .number n => .number n
  | .string s => .string s
  | .array _ => .array
  | .object _ => .object

/-- The words for what a value is. -/
def Kind.words : Kind → String
  | .null => "null"
  | .bool true => "boolean `true`"
  | .bool false => "boolean `false`"
  | .number (.int n) => "integer `" ++ (Number.int n).render ++ "`"
  | .number (.double d) => "floating point `" ++ (Number.double d).render ++ "`"
  | .string s => "string " ++ quoteVisibly s
  | .array => "sequence"
  | .object => "map"

/-- What stands where another kind of value was found. -/
inductive Expected where
  /-- A string. -/
  | text
  /-- A truth value. -/
  | flag
  /-- An array. -/
  | list
  /-- An object with any keys. -/
  | map
  /-- A record, by its title. -/
  | record (title : String)
  /-- The name of a choice. -/
  | choice
  /-- Nothing beside the name of a choice. -/
  | nothing
  /-- The path of a file. -/
  | path
deriving DecidableEq, Repr

/-- The words for what is expected. -/
def Expected.words : Expected → String
  | .text => "a string"
  | .flag => "a boolean"
  | .list => "a sequence"
  | .map => "a map"
  | .record title => "struct " ++ title
  | .choice => "string or map"
  | .nothing => "unit"
  | .path => "path string"

/-- Why a value does not have a shape. -/
inductive ShapeError where
  /-- A value of another kind is expected. -/
  | mismatch (found : Kind) (expected : Expected)
  /-- A record lacks a field. -/
  | missing (key : String)
  /-- A record has a field twice. -/
  | duplicate (key : String)
  /-- A record has a key that is none of its fields. -/
  | unknownKey (key : String) (known : List String)
  /-- A choice has a name that is none of those allowed. -/
  | unknownChoice (name : String) (known : List String)
  /-- An object that names a choice has not exactly one key. -/
  | notOneKey
  /-- A record written as an array has too few items. -/
  | tooShort (length : Nat) (title : String) (fields : Nat)
  /-- A record written as an array has too many items. -/
  | tooLong (length : Nat)
  /-- A part breaks a rule of its own. -/
  | rule (message : String)
deriving DecidableEq, Repr

/-- Names between backticks, separated by commas; more than one are announced as a choice. -/
private def listed (names : List String) : String :=
  let quoted := names.map fun name ↦ "`" ++ name ++ "`"
  match quoted with
  | [name] => name
  | names => "one of " ++ ", ".intercalate names

/-- The message of a shape error. -/
def ShapeError.message : ShapeError → String
  | .mismatch found expected => "invalid type: " ++ found.words ++ ", expected " ++ expected.words
  | .missing key => "missing field `" ++ key ++ "`"
  | .duplicate key => "duplicate field `" ++ key ++ "`"
  | .unknownKey key known => "unknown field `" ++ key ++ "`, expected " ++ listed known
  | .unknownChoice name known => "unknown variant `" ++ name ++ "`, expected " ++ listed known
  | .notOneKey => "invalid value: map, expected map with a single key"
  | .tooShort length title fields =>
    "invalid length " ++ toString length ++ ", expected struct " ++ title ++ " with " ++
      toString fields ++ (if fields = 1 then " element" else " elements")
  | .tooLong length =>
    "invalid length " ++ toString length ++ ", expected fewer elements in array"
  | .rule message => message

/-- The name of a choice: a string, or the one key of an object whose value is `null`. -/
def choiceName (names : List String) : Value → Except ShapeError String
  | .string s => if names.contains s then .ok s else .error (.unknownChoice s names)
  | .object [(key, v)] =>
    if !names.contains key then .error (.unknownChoice key names)
    else if v.isNull then .ok key
    else .error (.mismatch v.kind .nothing)
  | .object _ => .error .notOneKey
  | v => .error (.mismatch v.kind .choice)

/-- What a value has to look like; `ρ` names the records and parts of a grammar. -/
inductive Shape (ρ : Type) where
  /-- Any value. -/
  | any
  /-- A string. -/
  | text
  /-- A truth value. -/
  | flag
  /-- An array whose items have one shape. -/
  | list (item : Shape ρ)
  /-- An object whose values have one shape. -/
  | map (value : Shape ρ)
  /-- A record of the grammar. -/
  | record (name : ρ)
  /-- A part of the grammar that is read as a plain value first and judged afterwards. -/
  | whole (name : ρ)
deriving DecidableEq, Repr

/-- Whether a field may be left out. -/
inductive Presence where
  /-- The field has to be there. -/
  | required
  /-- The field may be left out, and `null` means the same. -/
  | optional
  /-- The field may be left out, and `null` is a value like any other. -/
  | verbatim
deriving DecidableEq, Repr

/-- A field of a record. -/
structure FieldShape (ρ : Type) where
  /-- The key. -/
  key : String
  /-- Whether it may be left out. -/
  presence : Presence
  /-- What its value has to look like. -/
  shape : Shape ρ
deriving DecidableEq, Repr

/-- What the records and parts of one kind of document are. -/
structure Grammar (ρ : Type) where
  /-- The title of a record, for messages. -/
  title : ρ → String
  /-- The fields of a record, in the order in which they are declared. -/
  fields : ρ → List (FieldShape ρ)
  /-- Whether a record refuses keys that are none of its fields. -/
  isClosed : ρ → Bool
  /-- The shape that a part has to have, given what it turned out to be, or what is wrong with
  it. -/
  resolve : ρ → Value → Except ShapeError (Shape ρ)

namespace Grammar

variable {ρ : Type}

/-- The grammar without records and parts. -/
def plain : Grammar Empty where
  title := nofun
  fields := nofun
  isClosed := nofun
  resolve := nofun

/-- The field of a record under a key. -/
def field? (g : Grammar ρ) (name : ρ) (key : String) : Option (FieldShape ρ) :=
  (g.fields name).find? (·.key == key)

/-- The keys that a record declares, in order. -/
def declaredKeys (g : Grammar ρ) (name : ρ) : List String :=
  (g.fields name).map (·.key)

/-- The first required field of a record among whose keys it is not. -/
def missing? (g : Grammar ρ) (name : ρ) (keys : List String) : Option ShapeError :=
  ((g.fields name).find? fun field ↦ field.presence = .required && !keys.contains field.key).map
    fun field ↦ .missing field.key

/-- What a shape expects. -/
def expected (g : Grammar ρ) : Shape ρ → Expected
  | .any => .nothing
  | .text => .text
  | .flag => .flag
  | .list _ => .list
  | .map _ => .map
  | .record name => .record (g.title name)
  | .whole name => .record (g.title name)

/-- The error for a value of another kind than a shape expects. -/
def mismatch (g : Grammar ρ) (shape : Shape ρ) (found : Kind) : ShapeError :=
  .mismatch found (g.expected shape)

/-- A shape with a part replaced by what it resolves to for a value. -/
def settle (g : Grammar ρ) (shape : Shape ρ) (v : Value) : Except ShapeError (Shape ρ) :=
  match shape with
  | .whole name => g.resolve name v
  | shape => .ok shape

/-- The place of a record's member under a key: what its value has to look like and whether `null`
will do, or what is wrong with the key itself after the keys `seen` so far. -/
def slot (g : Grammar ρ) (name : ρ) (seen : List String) (key : String) :
    Except ShapeError (Shape ρ × Bool) :=
  match g.field? name key with
  | none =>
    if g.isClosed name then .error (.unknownKey key (g.declaredKeys name)) else .ok (.any, true)
  | some field =>
    if seen.contains key then .error (.duplicate key)
    else .ok (field.shape, field.presence == .optional)

mutual

/-- The first fault of a value for a shape. -/
def error? (g : Grammar ρ) (shape : Shape ρ) (v : Value) : Option ShapeError :=
  match g.settle shape v, v with
  | .error e, _ => some e
  | .ok .any, _ => none
  | .ok .text, .string _ => none
  | .ok .flag, .bool _ => none
  | .ok (.list item), .array vs => itemError? g item vs
  | .ok (.map value), .object members => memberError? g value members
  | .ok (.record name), .object members => fieldError? g name [] members
  | .ok shape, v => some (g.mismatch shape v.kind)
termination_by structural v

/-- The first fault of the items of an array. -/
def itemError? (g : Grammar ρ) (shape : Shape ρ) : List Value → Option ShapeError
  | [] => none
  | v :: vs => (error? g shape v).or (itemError? g shape vs)
termination_by structural vs => vs

/-- The first fault of the values of a map. -/
def memberError? (g : Grammar ρ) (shape : Shape ρ) : List (String × Value) → Option ShapeError
  | [] => none
  | (_, v) :: rest => (error? g shape v).or (memberError? g shape rest)
termination_by structural members => members

/-- The first fault of the members of a record, after the keys `seen` so far. -/
def fieldError? (g : Grammar ρ) (name : ρ) (seen : List String) :
    List (String × Value) → Option ShapeError
  | [] => g.missing? name seen
  | (key, v) :: rest =>
    match g.slot name seen key with
    | .error e => some e
    | .ok (shape, nullable) =>
      (if nullable && v.isNull then none else error? g shape v).or
        (fieldError? g name (key :: seen) rest)
termination_by structural members => members

end

end Grammar

end RpcForge.Json

import RpcForge.Document.Wellformed
import RpcForge.Proofs.Client.TypeTree

/-!
# The grammars of types

Which texts spell which types, as the target languages read them. In Python a type is a name or a
name followed by what stands in its brackets. In TypeScript brackets behind a type make a list of
it, and they bind closer than the bar between the alternatives of a union.
-/

namespace RpcForge.TypeGrammar

/-- A name. -/
def IsName (text : List Char) : Prop :=
  text ≠ [] ∧ ∀ c ∈ text, Wellformed.isKeyChar c = true

instance (text : List Char) : Decidable (IsName text) :=
  decidable_of_iff (text ≠ [] ∧ text.all Wellformed.isKeyChar = true)
    (by rw [IsName, List.all_eq_true])

/-- What a name stands for: a type of the language, or else a model. -/
def named (l : Language) (text : List Char) : TypeTree :=
  if String.ofList text ∈ TypeTree.builtinNames l then .word (String.ofList text)
  else .model (String.ofList text)

/-- A name that no type of the language has, so that it can be the name of a model. -/
def IsModelName (l : Language) (name : String) : Prop :=
  IsName name.toList ∧ name ∉ TypeTree.builtinNames l

instance (l : Language) (name : String) : Decidable (IsModelName l name) :=
  inferInstanceAs (Decidable (IsName name.toList ∧ name ∉ TypeTree.builtinNames l))

/-- One or more elements with a sign between each and the next one. -/
inductive Separated {α : Type} (sign : List Char) (Reads : α → List Char → Prop) :
    List α → List Char → Prop
  /-- The last element. -/
  | one {a : α} {text : List Char} (h : Reads a text) : Separated sign Reads [a] text
  /-- An element with others behind it. -/
  | more {a : α} {as : List α} {text rest : List Char} (h : Reads a text)
    (hr : Separated sign Reads as rest) : Separated sign Reads (a :: as) (text ++ (sign ++ rest))

/-- What stands between the elements of a list. -/
def comma : List Char := [',', ' ']

/-- What stands between the alternatives of a union. -/
def bar : List Char := [' ', '|', ' ']

/-! ## Literals -/

/-- One or more decimal digits. -/
def IsDigits (text : List Char) : Prop :=
  text ≠ [] ∧ ∀ c ∈ text, c.isDigit = true

/-- A numeral: a sign, digits, a fraction and a power of ten, all but the digits optional. -/
inductive IsNumeral : List Char → Prop
  /-- The parts of a numeral in order. -/
  | mk {sign whole fraction power : List Char} (hs : sign = [] ∨ sign = ['-'])
    (hw : IsDigits whole) (hf : fraction = [] ∨ ∃ ds, IsDigits ds ∧ fraction = '.' :: ds)
    (hp : power = [] ∨ ∃ s ds, (s = '+' ∨ s = '-') ∧ IsDigits ds ∧ power = 'e' :: s :: ds) :
    IsNumeral (sign ++ whole ++ fraction ++ power)

/-- The characters that have an escape of one letter. -/
def shortEscapes : List (Char × Char) :=
  [('"', '"'), ('\'', '\''), ('\\', '\\'), ('a', '\x07'), ('b', '\x08'), ('f', '\x0c'),
    ('n', '\n'), ('r', '\r'), ('t', '\t'), ('v', '\x0b')]

/-- The value of a hexadecimal digit. -/
def hexDigit? (c : Char) : Option Nat :=
  if c.isDigit then some (c.toNat - '0'.toNat)
  else if 'a' ≤ c ∧ c ≤ 'f' then some (c.toNat - 'a'.toNat + 10)
  else if 'A' ≤ c ∧ c ≤ 'F' then some (c.toNat - 'A'.toNat + 10)
  else none

/-- The value of hexadecimal digits. -/
def hexValue? (digits : List Char) : Option Nat :=
  (digits.mapM hexDigit?).map fun ds ↦ ds.foldl (fun n d ↦ 16 * n + d) 0

/-- What a string between double quotes holds. -/
inductive Escaped : List Char → List Char → Prop
  /-- Nothing. -/
  | nil : Escaped [] []
  /-- A character that stands for itself. -/
  | plain {c : Char} {content text : List Char} (hc : c ∉ ['"', '\\', '\n', '\r'])
    (h : Escaped content text) : Escaped (c :: content) (c :: text)
  /-- An escape of one letter. -/
  | short {e c : Char} {content text : List Char} (he : (e, c) ∈ shortEscapes)
    (h : Escaped content text) : Escaped (c :: content) ('\\' :: e :: text)
  /-- An escape by four hexadecimal digits. -/
  | code {c : Char} {digits content text : List Char} (hl : digits.length = 4)
    (hv : hexValue? digits = some c.toNat) (h : Escaped content text) :
    Escaped (c :: content) ('\\' :: 'u' :: (digits ++ text))

/-- Literals of Python. -/
inductive ReadsLiteral : LiteralTree → List Char → Prop
  /-- The true one of the truth values. -/
  | yes : ReadsLiteral (.truth true) "True".toList
  /-- The false one of the truth values. -/
  | no : ReadsLiteral (.truth false) "False".toList
  /-- A numeral. -/
  | numeral {text : List Char} (h : IsNumeral text) :
    ReadsLiteral (.numeral (String.ofList text)) text
  /-- A string. -/
  | text {content text : List Char} (h : Escaped content text) :
    ReadsLiteral (.text (String.ofList content)) ('"' :: (text ++ ['"']))

/-! ## Python -/

namespace Python

/-- A name with brackets behind it. -/
inductive Head where
  /-- The type of one value. -/
  | literal
  /-- A fixed number of items. -/
  | tuple
  /-- Different items. -/
  | set
  /-- Items in order. -/
  | list
  /-- Values under keys. -/
  | dict
  /-- Any of several types. -/
  | union
  /-- A type or `None`. -/
  | optional
deriving DecidableEq, Repr

/-- How a name with brackets behind it is written. -/
def Head.text : Head → List Char
  | .literal => "Literal".toList
  | .tuple => "tuple".toList
  | .set => "set".toList
  | .list => "list".toList
  | .dict => "dict".toList
  | .union => "Union".toList
  | .optional => "Optional".toList

mutual

/-- Types of Python. -/
inductive Reads : TypeTree → List Char → Prop
  /-- A name. -/
  | name {text : List Char} (h : IsName text) : Reads (named .python text) text
  /-- A name with brackets behind it. -/
  | subscript {head : Head} {t : TypeTree} {inside : List Char} (h : Inside head t inside) :
    Reads t (head.text ++ '[' :: (inside ++ [']']))

/-- What stands in the brackets behind a name. -/
inductive Inside : Head → TypeTree → List Char → Prop
  /-- A value. -/
  | literal {value : LiteralTree} {text : List Char} (h : ReadsLiteral value text) :
    Inside .literal (.literal value) text
  /-- No items. -/
  | unit : Inside .tuple (.tuple []) ['(', ')']
  /-- Items of a fixed number. -/
  | tuple {ts : List TypeTree} {text : List Char} (h : Separated comma Reads ts text) :
    Inside .tuple (.tuple ts) text
  /-- What different items are. -/
  | set {t : TypeTree} {text : List Char} (h : Reads t text) : Inside .set (.set t) text
  /-- What items are. -/
  | list {t : TypeTree} {text : List Char} (h : Reads t text) : Inside .list (.list t) text
  /-- What the values under text keys are. -/
  | dict {t : TypeTree} {text : List Char} (h : Reads t text) :
    Inside .dict (.map t) ("str, ".toList ++ text)
  /-- Alternatives. -/
  | union {ts : List TypeTree} {text : List Char} (h : Separated comma Reads ts text) :
    Inside .union (.union ts) text
  /-- What is there unless it is `None`. -/
  | optional {t : TypeTree} {text : List Char} (h : Reads t text) :
    Inside .optional (.nullable t) text

end

end Python

/-! ## TypeScript -/

namespace TypeScript

/-- A name with arguments. -/
inductive Head where
  /-- Items in order. -/
  | array
  /-- Different items. -/
  | set
  /-- Values under keys. -/
  | record
deriving DecidableEq, Repr

/-- How a name with arguments is written. -/
def Head.text : Head → List Char
  | .array => "Array".toList
  | .set => "Set".toList
  | .record => "Record".toList

/-- The name of the type for values of any kind under text keys. -/
def objectName : List Char := "object".toList

/-- Brackets that make a list, some times over. -/
def brackets (n : Nat) : List Char :=
  (List.replicate n ['[', ']']).flatten

mutual

/-- Types that no brackets or bars make. -/
inductive Primary : TypeTree → List Char → Prop
  /-- A name. -/
  | name {text : List Char} (h : IsName text) (ho : text ≠ objectName) :
    Primary (named .typeScript text) text
  /-- Values of any kind under text keys. -/
  | object : Primary (.map (.any .typeScript)) objectName
  /-- No items. -/
  | unit : Primary (.tuple []) ['[', ']']
  /-- Items of a fixed number. -/
  | tuple {ts : List TypeTree} {text : List Char} (h : Separated comma Reads ts text) :
    Primary (.tuple ts) ('[' :: (text ++ [']']))
  /-- A name with arguments. -/
  | generic {head : Head} {t : TypeTree} {inside : List Char} (h : Arguments head t inside) :
    Primary t (head.text ++ '<' :: (inside ++ ['>']))

/-- Types with brackets behind them. -/
inductive Suffixed : TypeTree → List Char → Prop
  /-- Brackets, some times over. -/
  | mk {t : TypeTree} {text : List Char} (h : Primary t text) (n : Nat) :
    Suffixed (Nat.repeat TypeTree.list n t) (text ++ brackets n)

/-- Types of TypeScript. -/
inductive Reads : TypeTree → List Char → Prop
  /-- Alternatives, a single one of which stands for itself. -/
  | mk {ts : List TypeTree} {text : List Char} (h : Separated bar Suffixed ts text) :
    Reads (.ofAlternatives ts) text

/-- The arguments of a name. -/
inductive Arguments : Head → TypeTree → List Char → Prop
  /-- What items are. -/
  | array {t : TypeTree} {text : List Char} (h : Reads t text) : Arguments .array (.list t) text
  /-- What different items are. -/
  | set {t : TypeTree} {text : List Char} (h : Reads t text) : Arguments .set (.set t) text
  /-- What the values under text keys are. -/
  | record {t : TypeTree} {text : List Char} (h : Reads t text) :
    Arguments .record (.map t) ("string, ".toList ++ text)

end

end TypeScript

/-- A text spells a type of a language. -/
def Reads : Language → TypeTree → List Char → Prop
  | .python => Python.Reads
  | .typeScript => TypeScript.Reads

end RpcForge.TypeGrammar

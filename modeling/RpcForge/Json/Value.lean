import RpcForge.Json.Number
import RpcForge.Entries

/-!
# JSON values

The values a JSON text stands for. The members of an object keep their order; a value that was read
from a text has no key twice, which the type itself does not ask for.
-/

namespace RpcForge.Json

/-- A JSON value. -/
inductive Value where
  /-- The literal `null`. -/
  | null
  /-- A truth value. -/
  | bool (b : Bool)
  /-- A number. -/
  | number (n : Number)
  /-- A string. -/
  | string (s : String)
  /-- An array. -/
  | array (items : List Value)
  /-- An object, its members in order. -/
  | object (members : List (String × Value))
deriving Inhabited, Repr

namespace Value

/-- The value of a whole number. -/
def ofInt (n : Int) : Value :=
  .number (.int n)

/-- The value of a list of strings. -/
def ofStrings (texts : List String) : Value :=
  .array (texts.map .string)

/-- Whether this is the literal `null`. -/
def isNull : Value → Bool
  | .null => true
  | _ => false

/-- The text of a string. -/
def text? : Value → Option String
  | .string s => some s
  | _ => none

/-- The truth value of a literal. -/
def flag? : Value → Option Bool
  | .bool b => some b
  | _ => none

/-- The items of an array. -/
def items? : Value → Option (List Value)
  | .array items => some items
  | _ => none

/-- The members of an object. -/
def members? : Value → Option (Entries Value)
  | .object members => some members
  | _ => none

/-- The value under a key of an object. -/
def get? (v : Value) (key : String) : Option Value :=
  v.members?.bind (Entries.get? · key)

end Value

end RpcForge.Json

import RpcForge.Json.Value

/-!
# Members of a record

Reading the fields of a record from its members once it is known to have the right shape, and
writing them. A field that is absent or `null` has no value.
-/

namespace RpcForge.Json.Members

/-- The string under a key. -/
def text? (members : Entries Value) (key : String) : Option String :=
  (Entries.get? members key).bind Value.text?

/-- The string under a key that has to be there. -/
def text (members : Entries Value) (key : String) : String :=
  (text? members key).getD ""

/-- The truth value under a key. -/
def flag? (members : Entries Value) (key : String) : Option Bool :=
  (Entries.get? members key).bind Value.flag?

/-- The items of the array under a key. -/
def items? (members : Entries Value) (key : String) : Option (List Value) :=
  (Entries.get? members key).bind Value.items?

/-- The strings of the array under a key. -/
def texts? (members : Entries Value) (key : String) : Option (List String) :=
  (items? members key).map (List.filterMap Value.text?)

/-- The members of the object under a key. -/
def members? (members : Entries Value) (key : String) : Option (Entries Value) :=
  (Entries.get? members key).bind Value.members?

/-- The value under a key unless it is `null`. -/
def present? (members : Entries Value) (key : String) : Option Value :=
  (Entries.get? members key).filter (!·.isNull)

/-- A field that is always written. -/
def always (key : String) (v : Value) : Entries Value :=
  [(key, v)]

/-- A field that is written if it has a value. -/
def given {α : Type} (key : String) (write : α → Value) : Option α → Entries Value
  | some a => [(key, write a)]
  | none => []

/-- The values of a map, each rewritten. -/
def mapValues {α β : Type} (f : α → β) (entries : Entries α) : Entries β :=
  entries.map fun (key, a) ↦ (key, f a)

end RpcForge.Json.Members

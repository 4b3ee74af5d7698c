/-!
# Keyed entries

Entries under text keys in the order in which the keys were first written. The members of a JSON
object, the variables of a server, the schemas of a document and the methods of a group are kept
this way, because the order of a document is the order of everything generated from it.
-/

namespace RpcForge

/-- Values under keys, in the order in which the keys were first written. -/
abbrev Entries (α : Type) := List (String × α)

namespace Entries

variable {α : Type}

/-- The value under a key. -/
def get? (entries : Entries α) (key : String) : Option α :=
  List.lookup key entries

/-- Whether a key has a value. -/
def contains (entries : Entries α) (key : String) : Bool :=
  entries.any fun entry ↦ entry.1 == key

/-- The keys, in order. -/
def keys (entries : Entries α) : List String :=
  entries.map Prod.fst

/-- The values, in order of their keys. -/
def values (entries : Entries α) : List α :=
  entries.map Prod.snd

/-- Put a value under a key: a new key comes last, a known key keeps its place. -/
def insert : Entries α → String → α → Entries α
  | [], key, value => [(key, value)]
  | (k, v) :: rest, key, value =>
    if k = key then (k, value) :: rest else (k, v) :: insert rest key value

/-- The entries under other keys than the given ones. -/
def besides (entries : Entries α) (known : List String) : Entries α :=
  entries.filter fun entry ↦ !known.contains entry.1

end Entries

end RpcForge

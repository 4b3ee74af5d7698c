import RpcForge.Client.TypeExpr

/-!
# Types as trees

What a type of a target language says, apart from how it is spelled, and the tree that a meaning has
by the order in which its type is decided. The members of a union are compared as trees: the first
of equal ones is kept, and `null` is taken out. In Python it makes the union optional; TypeScript
has no unions inside unions, so there `null` is the last of all alternatives.
-/

namespace RpcForge

open RpcForge.Json

/-- A value that is a type of its own. -/
inductive LiteralTree where
  /-- A truth value. -/
  | truth (b : Bool)
  /-- A number, by its numeral. -/
  | numeral (text : String)
  /-- A text. -/
  | text (content : String)
deriving DecidableEq, Repr

/-- What a type says. -/
inductive TypeTree where
  /-- A type of the language. -/
  | word (name : String)
  /-- A model. -/
  | model (name : String)
  /-- The type of one value. -/
  | literal (value : LiteralTree)
  /-- A fixed number of items. -/
  | tuple (members : List TypeTree)
  /-- Different items in no order. -/
  | set (item : TypeTree)
  /-- Items in order. -/
  | list (item : TypeTree)
  /-- Values under text keys. -/
  | map (value : TypeTree)
  /-- Any of several types. -/
  | union (members : List TypeTree)
  /-- A type or `null`. -/
  | nullable (inner : TypeTree)
deriving Repr

namespace TypeTree

mutual

/-- Whether two trees are the same. -/
def same : TypeTree → TypeTree → Bool
  | .word a, .word b => a == b
  | .model a, .model b => a == b
  | .literal a, .literal b => a == b
  | .tuple as, .tuple bs => sameAll as bs
  | .set a, .set b => same a b
  | .list a, .list b => same a b
  | .map a, .map b => same a b
  | .union as, .union bs => sameAll as bs
  | .nullable a, .nullable b => same a b
  | _, _ => false

/-- Whether two lists of trees are the same. -/
def sameAll : List TypeTree → List TypeTree → Bool
  | [], [] => true
  | a :: as, b :: bs => same a b && sameAll as bs
  | _, _ => false

end

mutual

private theorem same_iff : ∀ a b : TypeTree, same a b = true ↔ a = b
  | .word a, b => by cases b <;> simp [same]
  | .model a, b => by cases b <;> simp [same]
  | .literal a, b => by cases b <;> simp [same]
  | .tuple as, b => by cases b <;> simp [same, sameAll_iff as]
  | .set a, b => by cases b <;> simp [same, same_iff a]
  | .list a, b => by cases b <;> simp [same, same_iff a]
  | .map a, b => by cases b <;> simp [same, same_iff a]
  | .union as, b => by cases b <;> simp [same, sameAll_iff as]
  | .nullable a, b => by cases b <;> simp [same, same_iff a]

private theorem sameAll_iff : ∀ as bs : List TypeTree, sameAll as bs = true ↔ as = bs
  | [], bs => by cases bs <;> simp [sameAll]
  | a :: as, bs => by cases bs <;> simp [sameAll, same_iff a, sameAll_iff as]

end

instance : DecidableEq TypeTree :=
  fun a b ↦ decidable_of_iff (same a b = true) (same_iff a b)

/-- The types of a language that have a name. -/
def builtinNames (l : Language) : List String :=
  TypeExpr.anyWord l ::
    ([Scalar.boolean, .integer, .number, .string, .null].map (TypeExpr.scalarWord l) ++
      StringFormat.all.map (TypeExpr.formatWord l) ++
      match l with
      | .python => []
      | .typeScript => ["object"])

/-- The type for anything. -/
def any (l : Language) : TypeTree :=
  .word (TypeExpr.anyWord l)

/-- The type of `null`. -/
def null (l : Language) : TypeTree :=
  .word (TypeExpr.scalarWord l .null)

/-- The types that a type is the union of. -/
def alternatives : TypeTree → List TypeTree
  | .union members => members
  | t => [t]

/-- The union of types; a single one stands for itself. -/
def ofAlternatives : List TypeTree → TypeTree
  | [t] => t
  | ts => .union ts

/-- The union of different types, with or without `null`. -/
def fold : Language → List TypeTree → Bool → TypeTree
  | l, [], true => null l
  | l, [], false => any l
  | .python, ts, true => .nullable (ofAlternatives ts)
  | .python, ts, false => ofAlternatives ts
  | .typeScript, ts, true => ofAlternatives (ts.flatMap alternatives ++ [null .typeScript])
  | .typeScript, ts, false => ofAlternatives (ts.flatMap alternatives)

/-- The union of types, each of which counts once. -/
def ofUnion (l : Language) (members : List TypeTree) : TypeTree :=
  fold l (members.filter (· ≠ null l)).eraseDups (members.contains (null l))

/-- The type of a constant. -/
def ofConst : Language → Value → TypeTree
  | l, .null => null l
  | l, .array _ => any l
  | l, .object _ => any l
  | .python, .bool b => .literal (.truth b)
  | .python, .number n => .literal (.numeral n.render)
  | .python, .string s => .literal (.text s)
  | .typeScript, .bool _ => .word "boolean"
  | .typeScript, .number _ => .word "number"
  | .typeScript, .string _ => .word "string"

mutual

/-- The tree of what has a meaning. -/
def ofMeaning (l : Language) : Meaning → TypeTree
  | .absent => any l
  | .flag _ => any l
  | .const v => ofConst l v
  | .tuple members _ _ => .tuple (ofMeanings l members)
  | .list items true => .set (ofItem l items)
  | .list items false => .list (ofItem l items)
  | .object _ _ additional => .map (ofItem l additional)
  | .scalar kind => .word (TypeExpr.scalarWord l kind)
  | .formatted format => .word (TypeExpr.formatWord l format)
  | .types members => ofUnion l (ofMeanings l members)
  | .union _ branches => ofUnion l (ofMeanings l branches)
  | .ref pointer => .model (Meaning.modelName pointer)
termination_by structural m => m

/-- The tree of a part; where nothing is said it is that for anything. -/
def ofItem (l : Language) : Option Meaning → TypeTree
  | some m => ofMeaning l m
  | none => any l
termination_by structural m => m

/-- The trees of what has given meanings. -/
def ofMeanings (l : Language) : List Meaning → List TypeTree
  | [] => []
  | m :: ms => ofMeaning l m :: ofMeanings l ms
termination_by structural ms => ms

end

theorem ofMeanings_eq_map (l : Language) (ms : List Meaning) :
    ofMeanings l ms = ms.map (ofMeaning l) := by
  induction ms with
  | nil => rfl
  | cons m ms ih => rw [ofMeanings, ih, List.map_cons]

end TypeTree

end RpcForge

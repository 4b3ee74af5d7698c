import RpcForge.Json.Shape

/-!
# Reading records with defaults

A record each of whose fields has a default is read from an object, in any order of its members, or
from an array of its first fields in order. Keys that are none of its fields are passed over. The
first fault is the one reported.
-/

namespace RpcForge.Json.Record

/-- Read a value as something. -/
abbrev Reading (α : Type) := Value → Except ShapeError α

/-- Read a string. -/
def text : Reading String
  | .string s => .ok s
  | v => .error (.mismatch v.kind .text)

/-- Read a path. -/
def path : Reading String
  | .string s => .ok s
  | v => .error (.mismatch v.kind .path)

/-- Read a truth value. -/
def flag : Reading Bool
  | .bool b => .ok b
  | v => .error (.mismatch v.kind .flag)

/-- Read an array of things. -/
def list {α : Type} (item : Reading α) : Reading (List α)
  | .array vs => vs.mapM item
  | v => .error (.mismatch v.kind .list)

/-- Read a thing, or nothing from `null`. -/
def optional {α : Type} (inner : Reading α) (v : Value) : Except ShapeError (Option α) :=
  if v.isNull then .ok none else (inner v).map some

/-- Read one of several things by its name. -/
def choice {α : Type} (names : List (String × α)) (v : Value) : Except ShapeError α := do
  let name ← choiceName (names.map Prod.fst) v
  match names.lookup name with
  | some a => .ok a
  | none => .error (.unknownChoice name (names.map Prod.fst))

/-- A field: its key, and how a value in its place changes a record. -/
structure Entry (α : Type) where
  /-- The key. -/
  key : String
  /-- The record with the field read from a value. -/
  read : α → Value → Except ShapeError α

/-- Read the field under a key, if there is one. -/
def readMember {α : Type} (fields : List (Entry α)) (a : α) (member : String × Value) :
    Except ShapeError α :=
  match fields.find? (·.key == member.1) with
  | some field => field.read a member.2
  | none => .ok a

/-- Read a record, starting from its defaults. -/
def read {α : Type} (title : String) (fields : List (Entry α)) (default : α) : Reading α
  | .object members => members.foldlM (readMember fields) default
  | .array vs => do
    let a ← (fields.zip vs).foldlM (fun a (field, v) ↦ field.read a v) default
    if fields.length < vs.length then .error (.tooLong vs.length) else .ok a
  | v => .error (.mismatch v.kind (.record title))

end RpcForge.Json.Record

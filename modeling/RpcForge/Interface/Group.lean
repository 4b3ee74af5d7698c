import RpcForge.Interface.Operation
import RpcForge.Naming
import RpcForge.Text.Pieces

/-!
# Groups

The names of operations have segments between points. All but the last one name groups, so that
`math.add` is the member `add` of the group `math`. A name stands for a group or for an operation
but not for both, and for one operation at most.
-/

namespace RpcForge

/-- A group of operations and of further groups. -/
structure Group where
  /-- The last segment of the path, or the name of the client for the root. -/
  name : String
  /-- The segments that lead to the group. -/
  path : List String := []
  /-- The operations, under the last segments of their names. -/
  operations : List (String × Operation) := []
  /-- The groups in this one, under their names. -/
  groups : List (String × Group) := []
deriving Inhabited

namespace Group

/-- Whether this is the root. -/
def isRoot (group : Group) : Bool :=
  group.path.isEmpty

/-- How the group is named in messages. -/
def displayPath (group : Group) : String :=
  if group.isRoot then group.name else ".".intercalate group.path

mutual

/-- The number of operations in a group and in the groups below it. -/
def count : Group → Nat
  | ⟨_, _, operations, groups⟩ => operations.length + countAll groups
termination_by structural g => g

/-- The number of operations in groups and in the groups below them. -/
def countAll : List (String × Group) → Nat
  | [] => 0
  | (_, g) :: rest => count g + countAll rest
termination_by structural gs => gs

end

mutual

/-- A group and all groups below it, each before those that it holds. -/
def descendants : Group → List Group
  | ⟨name, path, operations, groups⟩ =>
    ⟨name, path, operations, groups⟩ :: descendantsOfAll groups
termination_by structural g => g

/-- Groups and all groups below them. -/
def descendantsOfAll : List (String × Group) → List Group
  | [] => []
  | (_, g) :: rest => descendants g ++ descendantsOfAll rest
termination_by structural gs => gs

end

/-- The groups below a group. -/
def subgroups (group : Group) : List Group :=
  descendantsOfAll group.groups

/-- The members of a group by their names: its groups, and then its operations. -/
def memberNames (group : Group) : List String :=
  Entries.keys group.groups ++ Entries.keys group.operations

/-- Put an operation into a group under a key that no member has. -/
def attach (group : Group) (key : String) (operation : Operation) : Except GenerationError Group :=
  if Entries.contains group.groups key then
    .error (.nameCollision group.displayPath key
      ("method '" ++ operation.name ++ "' clashes with a group of the same name"))
  else match Entries.get? group.operations key with
    | some existing =>
      .error (.nameCollision group.displayPath key
        ("methods '" ++ existing.name ++ "' and '" ++ operation.name ++
          "' map to the same identifier"))
    | none => .ok { group with operations := Entries.insert group.operations key operation }

/-- The group under a segment of a group, which is an empty one if it is new. -/
def child (group : Group) (segment : String) : Group :=
  (Entries.get? group.groups segment).getD { name := segment, path := group.path ++ [segment] }

/-- Put an operation under a key into the group that a path leads to from a group; groups on the way
are made where they are missing. -/
def place (key : String) (operation : Operation) (group : Group) :
    List String → Except GenerationError Group
  | [] => group.attach key operation
  | segment :: path =>
    if Entries.contains group.operations segment then
      .error (.nameCollision group.displayPath segment
        "a method already uses this name, so it cannot also be a group")
    else do
      let inner ← place key operation (group.child segment) path
      return { group with groups := Entries.insert group.groups segment inner }

/-- The segments of the name of an operation, each as a name. -/
def segments (name : String) : List String :=
  (Text.pieces '.' name).map Naming.sanitize

/-- Put an operation into the tree of a root. -/
def add (root : Group) (operation : Operation) : Except GenerationError Group :=
  let path := segments operation.name
  place (path.getLast?.getD Naming.placeholder) operation root path.dropLast

/-- The tree of operations under a root with a name. -/
def ofOperations (name : String) (operations : List Operation) : Except GenerationError Group :=
  operations.foldlM add { name := name }

end Group

end RpcForge

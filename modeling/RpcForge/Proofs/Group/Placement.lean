import Mathlib.Data.List.Pairwise
import RpcForge.Interface.Group
import RpcForge.Proofs.Entries

/-!
# What a tree of operations holds

A tree is compared with the list of the operations that were put into it, each with the segments
that lead to it. `Group.Holds` says that a group and all groups below it are made of exactly these
placements, in their order. Putting in one more placement either extends the list or fails, and it
fails exactly where its path is a beginning of one in the list or the other way round.
-/

namespace RpcForge.Group

/-- An operation with the segments that lead to it from some group. -/
abbrev Placement := List String × Operation

/-- Neither path is a beginning of the other. -/
def Apart (p q : List String) : Prop := ¬p <+: q ∧ ¬q <+: p

instance (p q : List String) : Decidable (Apart p q) :=
  inferInstanceAs (Decidable (_ ∧ _))

/-- Paths lead somewhere, and none of them is a beginning of another one. -/
structure Compatible (placements : List Placement) : Prop where
  /-- Every path has a last segment, the key of the operation. -/
  ne_nil : ∀ placement ∈ placements, placement.1 ≠ []
  /-- No path is a beginning of another one. -/
  apart : placements.Pairwise fun a b ↦ Apart a.1 b.1

/-- A member of the group itself: a key with an operation. -/
def direct? : Placement → Option (String × Operation)
  | ([key], operation) => some (key, operation)
  | _ => none

/-- The group right below that a placement leads into. -/
def firstGroup? : Placement → Option String
  | (segment :: _ :: _, _) => some segment
  | _ => none

/-- A placement as the group under a segment sees it. -/
def inside? (segment : String) : Placement → Option Placement
  | (first :: next :: rest, operation) =>
    if first = segment then some (next :: rest, operation) else none
  | _ => none

/-- The group with a name at a path, and all groups below it, are made of given placements: each
holds the operations that it is the last group of, in order, and is divided at the segments that
come next, in order of first use. -/
inductive Holds : String → List String → Group → List Placement → Prop
  | intro {name path groups placements}
      (keys_eq : Entries.keys groups = (placements.filterMap firstGroup?).eraseDups)
      (inner : ∀ segment group, (segment, group) ∈ groups →
        Holds segment (path ++ [segment]) group (placements.filterMap (inside? segment))) :
      Holds name path ⟨name, path, placements.filterMap direct?, groups⟩ placements

/-! ## Paths -/

/-- Being apart does not depend on the order. -/
theorem Apart.symm {p q : List String} (h : Apart p q) : Apart q p := ⟨h.2, h.1⟩

/-- A common first segment makes no difference. -/
theorem apart_cons_iff (segment : String) (p q : List String) :
    Apart (segment :: p) (segment :: q) ↔ Apart p q := by
  simp [Apart, List.cons_prefix_cons]

/-- Paths with different first segments are apart. -/
private theorem apart_of_ne {s t : String} (h : s ≠ t) (p q : List String) :
    Apart (s :: p) (t :: q) := by
  simp [Apart, List.cons_prefix_cons, h, Ne.symm h]

/-- A path of one segment meets exactly the paths that begin with it. -/
theorem not_apart_singleton {s : String} (q : List String) : ¬Apart [s] (s :: q) := by
  simp [Apart, List.cons_prefix_cons]

/-- Paths that meet begin with the same segment. -/
theorem eq_of_not_apart {s t : String} {p q : List String} (h : ¬Apart (s :: p) (t :: q)) :
    s = t := by
  by_contra hne
  exact h (apart_of_ne hne p q)

/-! ## Placements -/

@[simp] theorem direct?_one (key : String) (operation : Operation) :
    direct? ([key], operation) = some (key, operation) := rfl

@[simp] theorem direct?_more (segment next : String) (rest : List String) (operation : Operation) :
    direct? (segment :: next :: rest, operation) = none := rfl

@[simp] theorem firstGroup?_one (key : String) (operation : Operation) :
    firstGroup? ([key], operation) = none := rfl

@[simp] theorem firstGroup?_more (segment next : String) (rest : List String)
    (operation : Operation) : firstGroup? (segment :: next :: rest, operation) = some segment := rfl

@[simp] theorem inside?_one (segment key : String) (operation : Operation) :
    inside? segment ([key], operation) = none := rfl

@[simp] theorem inside?_more (segment first next : String) (rest : List String)
    (operation : Operation) : inside? segment (first :: next :: rest, operation) =
      if first = segment then some (next :: rest, operation) else none := rfl

/-- A member of the group itself is a placement of one segment. -/
theorem direct?_eq_some_iff {placement : Placement} {key : String} {operation : Operation} :
    direct? placement = some (key, operation) ↔ placement = ([key], operation) := by
  obtain ⟨p, o⟩ := placement
  rcases p with _ | ⟨s, _ | ⟨t, rest⟩⟩
  · simp [direct?]
  · simp
  · simp

/-- The members of the group itself are the placements of one segment. -/
theorem mem_filterMap_direct {placements : List Placement} {key : String} {operation : Operation} :
    (key, operation) ∈ placements.filterMap direct? ↔ ([key], operation) ∈ placements := by
  simp [List.mem_filterMap, direct?_eq_some_iff]

/-- A group below is used by the placements that go on behind its segment. -/
private theorem mem_filterMap_firstGroup {placements : List Placement} {segment : String} :
    segment ∈ placements.filterMap firstGroup? ↔
      ∃ next rest operation, (segment :: next :: rest, operation) ∈ placements := by
  rw [List.mem_filterMap]
  constructor
  · rintro ⟨⟨p, o⟩, hm, he⟩
    rcases p with _ | ⟨s, _ | ⟨t, rest⟩⟩ <;> simp only [firstGroup?, Option.some.injEq,
      reduceCtorEq] at he
    subst he
    exact ⟨t, rest, o, hm⟩
  · rintro ⟨next, rest, o, hm⟩
    exact ⟨_, hm, rfl⟩

/-- What the group under a segment sees are the rests of the placements that go on behind it. -/
theorem inside?_eq_some_iff {segment : String} {placement inner : Placement} :
    inside? segment placement = some inner ↔
      inner.1 ≠ [] ∧ placement = (segment :: inner.1, inner.2) := by
  obtain ⟨p, o⟩ := placement
  obtain ⟨q, o'⟩ := inner
  rcases p with _ | ⟨s, _ | ⟨t, rest⟩⟩
  · simp [inside?]
  · simp only [inside?, reduceCtorEq, Prod.mk.injEq, List.cons.injEq, false_iff, not_and]
    intro hq hs
    exact absurd hs.2.symm hq
  · simp only [inside?, Option.ite_none_right_eq_some, Option.some.injEq, Prod.mk.injEq,
      List.cons.injEq]
    constructor
    · rintro ⟨rfl, rfl, rfl⟩
      exact ⟨List.cons_ne_nil _ _, ⟨rfl, rfl⟩, rfl⟩
    · rintro ⟨-, ⟨rfl, rfl⟩, rfl⟩
      exact ⟨rfl, rfl, rfl⟩

/-- A group below sees a placement exactly if the group above has it behind the segment. -/
theorem mem_filterMap_inside {placements : List Placement} {segment : String} {q : List String}
    {operation : Operation} (hq : q ≠ []) :
    (q, operation) ∈ placements.filterMap (inside? segment) ↔
      (segment :: q, operation) ∈ placements := by
  simp [List.mem_filterMap, inside?_eq_some_iff, hq]

/-- A segment that no placement uses has nothing behind it. -/
private theorem filterMap_inside_eq_nil {placements : List Placement} {segment : String}
    (h : segment ∉ placements.filterMap firstGroup?) :
    placements.filterMap (inside? segment) = [] := by
  rw [List.filterMap_eq_nil_iff]
  rintro ⟨p, o⟩ hm
  rw [Option.eq_none_iff_forall_ne_some]
  rintro ⟨q, o'⟩ he
  obtain ⟨hq, he⟩ := inside?_eq_some_iff.mp he
  obtain ⟨next, rest, rfl⟩ := List.exists_cons_of_ne_nil hq
  rw [he] at hm
  exact h (mem_filterMap_firstGroup.mpr ⟨next, rest, o', hm⟩)

/-- What a group below sees is compatible if the whole is. -/
theorem Compatible.inside {placements : List Placement} (h : Compatible placements)
    (segment : String) : Compatible (placements.filterMap (inside? segment)) where
  ne_nil := by
    intro inner hm
    obtain ⟨placement, _, he⟩ := List.mem_filterMap.mp hm
    exact (inside?_eq_some_iff.mp he).1
  apart := by
    rw [List.pairwise_filterMap]
    apply h.apart.imp
    intro a b hab c hc d hd
    rw [(inside?_eq_some_iff.mp hc).2, (inside?_eq_some_iff.mp hd).2] at hab
    exact (apart_cons_iff _ _ _).mp hab

/-- Two placements of a compatible list whose paths meet are one and the same. -/
theorem Compatible.eq_of_not_apart {placements : List Placement} (h : Compatible placements)
    {a b : Placement} (ha : a ∈ placements) (hb : b ∈ placements) (hab : ¬Apart a.1 b.1) :
    a = b := by
  have : Std.Symm fun a b : Placement ↦ Apart a.1 b.1 := ⟨fun _ _ ↦ Apart.symm⟩
  by_contra hne
  exact hab (h.apart.forall ha hb hne)

/-! ## Groups -/

variable {name : String} {path : List String} {group : Group} {placements : List Placement}

/-- A group holds its own operations in the order of the placements. -/
theorem Holds.operations_eq (h : Holds name path group placements) :
    group.operations = placements.filterMap direct? := by
  cases h
  rfl

/-- The groups in a group come in the order of their first use. -/
theorem Holds.keys_eq (h : Holds name path group placements) :
    Entries.keys group.groups = (placements.filterMap firstGroup?).eraseDups := by
  cases h
  assumption

/-- A group has the name under which it is looked at. -/
theorem Holds.name_eq (h : Holds name path group placements) : group.name = name := by
  cases h
  rfl

/-- A group has the path at which it is looked at. -/
theorem Holds.path_eq (h : Holds name path group placements) : group.path = path := by
  cases h
  rfl

/-- A group in a group holds what the placements have behind its segment. -/
theorem Holds.inner (h : Holds name path group placements) {segment : String} {below : Group}
    (hm : (segment, below) ∈ group.groups) :
    Holds segment (path ++ [segment]) below (placements.filterMap (inside? segment)) := by
  cases h with
  | intro _ inner => exact inner segment below hm

/-- The groups in a group have different names. -/
theorem Holds.nodup_keys (h : Holds name path group placements) :
    (Entries.keys group.groups).Nodup := by
  rw [h.keys_eq]
  exact nodup_eraseDups _

/-- A segment names a group exactly if some placement goes on behind it. -/
theorem Holds.mem_keys_groups (h : Holds name path group placements) (segment : String) :
    segment ∈ Entries.keys group.groups ↔
      ∃ next rest operation, (segment :: next :: rest, operation) ∈ placements := by
  rw [h.keys_eq, List.mem_eraseDups, mem_filterMap_firstGroup]

/-- A key names an operation exactly if some placement ends with it. -/
theorem Holds.mem_keys_operations (h : Holds name path group placements) (key : String) :
    key ∈ Entries.keys group.operations ↔ ∃ operation, ([key], operation) ∈ placements := by
  rw [h.operations_eq]
  constructor
  · intro hk
    obtain ⟨operation, hm⟩ := Entries.exists_mem_of_mem_keys hk
    exact ⟨operation, mem_filterMap_direct.mp hm⟩
  · rintro ⟨operation, hm⟩
    exact Entries.mem_keys (mem_filterMap_direct.mpr hm)

/-- A group without placements is empty. -/
theorem holds_empty (name : String) (path : List String) :
    Holds name path { name := name, path := path } [] := by
  change Holds name path ⟨name, path, [].filterMap direct?, []⟩ []
  exact .intro rfl (by simp)

/-- The group under a segment holds what is behind the segment, also where it is new. -/
theorem Holds.child (h : Holds name path group placements) (segment : String) :
    Holds segment (path ++ [segment]) (group.child segment)
      (placements.filterMap (inside? segment)) := by
  unfold Group.child
  cases hg : Entries.get? group.groups segment with
  | some below => exact h.inner (Entries.mem_of_get? hg)
  | none =>
    have hn : segment ∉ placements.filterMap firstGroup? := by
      rwa [Entries.get?_eq_none_iff, h.keys_eq, List.mem_eraseDups] at hg
    rw [filterMap_inside_eq_nil hn, h.path_eq]
    exact holds_empty _ _

end RpcForge.Group

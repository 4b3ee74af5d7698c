import Mathlib.Algebra.BigOperators.Group.List.Lemmas
import Mathlib.Algebra.Ring.Nat
import Mathlib.Data.List.Dedup
import RpcForge.Proofs.Group.Collision

/-!
# The shape of a tree of operations

A tree that grouping returns holds every operation once, at the end of the segments of its name, and
nothing else; its groups know their names and paths, none of them is empty, and all of them are
listed, each before those below it. All of this follows from the placements that a group holds.
-/

namespace RpcForge.Group

/-- The group that segments lead to from a group. -/
def groupAt? (group : Group) : List String → Option Group
  | [] => some group
  | segment :: steps => (Entries.get? group.groups segment).bind (groupAt? · steps)

/-- A placement as the group behind some segments sees it. -/
def under? : List String → Placement → Option Placement
  | [], placement => some placement
  | segment :: steps, placement => (inside? segment placement).bind (under? steps)

/-- The segment behind a path on the way to an operation, if the way goes through the path and on to
a further group. -/
def segmentBelow? (path : List String) (operation : Operation) : Option String :=
  if path <+: groupPath operation then (groupPath operation)[path.length]? else none

/-- The tree of operations under a root with a name. -/
structure IsTreeOf (root : Group) (name : String) (operations : List Operation) : Prop where
  /-- The root has the name and no segments. -/
  root_eq : root.name = name ∧ root.path = []
  /-- The segments of a name lead to the operation. -/
  found : ∀ operation ∈ operations, ∃ group, root.groupAt? (groupPath operation) = some group ∧
    Entries.get? group.operations (memberKey operation) = some operation
  /-- There are as many operations in the tree as there were given. -/
  count_eq : root.count = operations.length
  /-- The operations of a group are those whose names lead there, in the order given. -/
  operations_eq : ∀ group ∈ root.descendants, group.operations =
    (operations.filter fun operation ↦ groupPath operation = group.path).map
      fun operation ↦ (memberKey operation, operation)
  /-- The groups in a group are those that the names lead through, in order of first use. -/
  groups_eq : ∀ group ∈ root.descendants,
    Entries.keys group.groups = (operations.filterMap (segmentBelow? group.path)).eraseDups
  /-- No two members of a group, be they operations or groups, have the same key. -/
  members_nodup : ∀ group ∈ root.descendants, group.memberNames.Nodup
  /-- A group in a group has its key as its name, and its path goes on by that name. -/
  inner_eq : ∀ group ∈ root.descendants, ∀ key inner, (key, inner) ∈ group.groups →
    inner.name = key ∧ inner.path = group.path ++ [key]
  /-- Every group but the root has an operation somewhere below it. -/
  inhabited : ∀ group ∈ root.descendants, group.isRoot = false → 0 < group.count
  /-- The listed groups are those that segments lead to, each by its path. -/
  listed : ∀ steps group,
    root.groupAt? steps = some group ↔ group ∈ root.descendants ∧ group.path = steps
  /-- No group is listed behind one at the same path or below it. -/
  ordered : root.descendants.Pairwise fun earlier later ↦ ¬later.path <+: earlier.path

/-! ## Counting and listing -/

/-- The groups below several groups are listed one group after the other. -/
private theorem descendantsOfAll_eq (groups : List (String × Group)) :
    descendantsOfAll groups = groups.flatMap fun entry ↦ entry.2.descendants := by
  induction groups with
  | nil => rfl
  | cons entry rest ih => simp [descendantsOfAll, ih]

/-- A group is listed before all groups below it. -/
theorem descendants_eq (group : Group) :
    group.descendants = group :: group.groups.flatMap fun entry ↦ entry.2.descendants := by
  obtain ⟨name, path, operations, groups⟩ := group
  rw [descendants, descendantsOfAll_eq]

/-- The operations below several groups are counted one group after the other. -/
private theorem countAll_eq (groups : List (String × Group)) :
    countAll groups = (groups.map fun entry ↦ entry.2.count).sum := by
  induction groups with
  | nil => rfl
  | cons entry rest ih => simp [countAll, ih]

/-- A group counts its own operations and those below it. -/
private theorem count_eq (group : Group) :
    group.count = group.operations.length + (group.groups.map fun entry ↦ entry.2.count).sum := by
  obtain ⟨name, path, operations, groups⟩ := group
  rw [count, countAll_eq]

/-! ## Placements behind segments -/

/-- What a group further below sees. -/
private theorem filterMap_under_cons (segment : String) (steps : List String)
    (placements : List Placement) :
    placements.filterMap (under? (segment :: steps)) =
      (placements.filterMap (inside? segment)).filterMap (under? steps) := by
  rw [List.filterMap_filterMap]
  rfl

/-- What a group further below sees is compatible if the whole is. -/
theorem Compatible.under {placements : List Placement} (h : Compatible placements)
    (steps : List String) : Compatible (placements.filterMap (under? steps)) := by
  induction steps generalizing placements with
  | nil => simpa [under?] using h
  | cons segment steps ih =>
    rw [filterMap_under_cons]
    exact ih (h.inside segment)

section Concat

variable (s : String) (p : List String) (key : String) (operation : Operation)

/-- A placement of more than one segment is seen by the groups under its first one. -/
theorem under?_cons_concat (segment : String) (steps : List String) :
    under? (segment :: steps) (s :: (p ++ [key]), operation) =
      if s = segment then under? steps (p ++ [key], operation) else none := by
  obtain ⟨next, rest, hp⟩ := List.exists_cons_of_ne_nil (l := p ++ [key]) (by simp)
  rw [under?, hp, inside?_more]
  split
  · rfl
  · rfl

private theorem direct?_cons_concat : direct? (s :: (p ++ [key]), operation) = none := by
  obtain ⟨next, rest, hp⟩ := List.exists_cons_of_ne_nil (l := p ++ [key]) (by simp)
  rw [hp, direct?_more]

private theorem firstGroup?_cons_concat : firstGroup? (s :: (p ++ [key]), operation) = some s := by
  obtain ⟨next, rest, hp⟩ := List.exists_cons_of_ne_nil (l := p ++ [key]) (by simp)
  rw [hp, firstGroup?_more]

end Concat

/-- An operation is a member of the group that all its segments but the last one lead to. -/
private theorem direct?_under? (steps : List String) (p : List String) (key : String)
    (operation : Operation) : (under? steps (p ++ [key], operation)).bind direct? =
      if p = steps then some (key, operation) else none := by
  induction steps generalizing p with
  | nil =>
    cases p with
    | nil => rfl
    | cons s p => simp [under?, direct?_cons_concat]
  | cons segment steps ih =>
    cases p with
    | nil => rfl
    | cons s p =>
      rw [List.cons_append, under?_cons_concat]
      by_cases he : s = segment
      · simpa [he] using ih p
      · simp [he]

/-- An operation uses a group below those that its segments lead through. -/
private theorem firstGroup?_under? (steps : List String) (p : List String) (key : String)
    (operation : Operation) : (under? steps (p ++ [key], operation)).bind firstGroup? =
      if steps <+: p then p[steps.length]? else none := by
  induction steps generalizing p with
  | nil =>
    cases p with
    | nil => rfl
    | cons s p => simp [under?, firstGroup?_cons_concat]
  | cons segment steps ih =>
    cases p with
    | nil => simp [under?]
    | cons s p =>
      rw [List.cons_append, under?_cons_concat]
      by_cases he : s = segment
      · simpa [he, List.cons_prefix_cons] using ih p
      · simp [he, List.cons_prefix_cons, Ne.symm he]

/-! ## The groups that a group holds -/

variable {name : String} {path : List String} {group : Group} {placements : List Placement}

/-- A group that segments lead to holds what is behind these segments. -/
private theorem Holds.groupAt (h : Holds name path group placements) {steps : List String}
    {below : Group} (hb : group.groupAt? steps = some below) :
    ∃ last, Holds last (path ++ steps) below (placements.filterMap (under? steps)) := by
  induction steps generalizing name path group placements with
  | nil =>
    cases hb
    exact ⟨name, by simpa [under?] using h⟩
  | cons segment steps ih =>
    obtain ⟨inner, hg, hb⟩ := Option.bind_eq_some_iff.mp hb
    obtain ⟨last, hl⟩ := ih (h.inner (Entries.mem_of_get? hg)) hb
    refine ⟨last, ?_⟩
    rw [filterMap_under_cons]
    simpa using hl

/-- Segments that lead to a group are used by some placement. -/
theorem Holds.under_ne_nil (h : Holds name path group placements) {steps : List String}
    {below : Group} (hb : group.groupAt? steps = some below) (hs : steps ≠ []) :
    placements.filterMap (under? steps) ≠ [] := by
  induction steps generalizing name path group placements with
  | nil => exact absurd rfl hs
  | cons segment steps ih =>
    obtain ⟨inner, hg, hb⟩ := Option.bind_eq_some_iff.mp hb
    have hm := Entries.mem_of_get? hg
    rw [filterMap_under_cons]
    by_cases hn : steps = []
    · obtain ⟨next, rest, operation, hp⟩ := (h.mem_keys_groups segment).mp (Entries.mem_keys hm)
      have hi := (mem_filterMap_inside (List.cons_ne_nil _ _)).mpr hp
      subst hn
      exact List.ne_nil_of_mem (List.mem_filterMap.mpr ⟨_, hi, rfl⟩)
    · exact ih (h.inner hm) hb hn

/-- The operations in a group have different keys. -/
private theorem Holds.nodup_operations (h : Holds name path group placements)
    (hc : Compatible placements) :
    (Entries.keys group.operations).Nodup := by
  rw [h.operations_eq, Entries.keys, List.nodup_iff_pairwise_ne, List.pairwise_map,
    List.pairwise_filterMap]
  apply hc.apart.imp
  rintro a b hab ⟨k, o⟩ hk ⟨l, o'⟩ hl he
  rw [direct?_eq_some_iff.mp hk, direct?_eq_some_iff.mp hl] at hab
  obtain rfl : k = l := he
  exact not_apart_singleton [] hab

/-- The members of a group, be they operations or groups, have different keys. -/
private theorem Holds.nodup_memberNames (h : Holds name path group placements)
    (hc : Compatible placements) : group.memberNames.Nodup := by
  rw [memberNames, List.nodup_append]
  refine ⟨h.nodup_keys, h.nodup_operations hc, ?_⟩
  intro s hs t ht he
  subst he
  obtain ⟨next, rest, o, hm⟩ := (h.mem_keys_groups s).mp hs
  obtain ⟨o', hm'⟩ := (h.mem_keys_operations s).mp ht
  have hp := hc.eq_of_not_apart hm' hm (not_apart_singleton _)
  simp at hp

/-- The last of the segments of a placement is its key in the group that the others lead to. -/
theorem Holds.found (h : Holds name path group placements) (hc : Compatible placements)
    {steps : List String} {key : String} {operation : Operation}
    (hm : (steps ++ [key], operation) ∈ placements) :
    ∃ below, group.groupAt? steps = some below ∧
      Entries.get? below.operations key = some operation := by
  induction steps generalizing name path group placements with
  | nil =>
    have hk : (key, operation) ∈ group.operations := by
      rw [h.operations_eq]
      exact mem_filterMap_direct.mpr hm
    exact ⟨group, rfl, Entries.get?_of_mem (h.nodup_operations hc) hk⟩
  | cons segment steps ih =>
    obtain ⟨next, rest, hs⟩ := List.exists_cons_of_ne_nil (l := steps ++ [key]) (by simp)
    have hk : segment ∈ Entries.keys group.groups :=
      (h.mem_keys_groups segment).mpr ⟨next, rest, operation, by simpa [← hs] using hm⟩
    obtain ⟨inner, hi⟩ := Entries.exists_mem_of_mem_keys hk
    obtain ⟨below, hb, ho⟩ := ih (h.inner hi) (hc.inside segment)
      ((mem_filterMap_inside (by simp)).mpr hm)
    refine ⟨below, ?_, ho⟩
    rw [groupAt?, Entries.get?_of_mem h.nodup_keys hi]
    exact hb

/-- The listed groups are those that segments lead to. -/
theorem Holds.mem_descendants_iff (h : Holds name path group placements) (below : Group) :
    below ∈ group.descendants ↔ ∃ steps, group.groupAt? steps = some below := by
  induction h with
  | @intro name path groups placements keys_eq inner ih =>
    have hd : (Entries.keys groups).Nodup := keys_eq ▸ nodup_eraseDups _
    rw [descendants_eq, List.mem_cons, List.mem_flatMap]
    constructor
    · rintro (rfl | ⟨⟨segment, inside⟩, hm, hb⟩)
      · exact ⟨[], rfl⟩
      · obtain ⟨steps, hs⟩ := (ih segment inside hm).mp hb
        refine ⟨segment :: steps, ?_⟩
        rw [groupAt?, Entries.get?_of_mem hd hm]
        exact hs
    · rintro ⟨_ | ⟨segment, steps⟩, hs⟩
      · exact .inl (Option.some.inj hs).symm
      · obtain ⟨inside, hg, hb⟩ := Option.bind_eq_some_iff.mp hs
        have hm := Entries.mem_of_get? hg
        exact .inr ⟨(segment, inside), hm, (ih segment inside hm).mpr ⟨steps, hb⟩⟩

/-- Every listed group lies at or below the group whose groups are listed. -/
private theorem Holds.path_isPrefix (h : Holds name path group placements) {below : Group}
    (hm : below ∈ group.descendants) : path <+: below.path := by
  obtain ⟨steps, hs⟩ := (h.mem_descendants_iff below).mp hm
  obtain ⟨last, hl⟩ := h.groupAt hs
  rw [hl.path_eq]
  exact List.prefix_append path steps

/-- No group is listed behind one at the same path or below it. -/
theorem Holds.ordered (h : Holds name path group placements) :
    group.descendants.Pairwise fun earlier later ↦ ¬later.path <+: earlier.path := by
  induction h with
  | @intro name path groups placements keys_eq inner ih =>
    rw [descendants_eq, List.pairwise_cons, List.pairwise_flatMap]
    refine ⟨?_, fun entry hm ↦ ih entry.1 entry.2 hm, ?_⟩
    · intro below hm hp
      obtain ⟨⟨segment, inside⟩, hm, hb⟩ := List.mem_flatMap.mp hm
      have hl := (((inner segment inside hm).path_isPrefix hb).trans hp).length_le
      simp only [List.length_append, List.length_singleton] at hl
      omega
    · have hd : (Entries.keys groups).Nodup := keys_eq ▸ nodup_eraseDups _
      rw [Entries.keys, List.nodup_iff_pairwise_ne, List.pairwise_map] at hd
      apply List.Pairwise.imp_of_mem _ hd
      rintro ⟨s, a⟩ ⟨t, b⟩ ha hb hne x hx y hy hp
      have hs := (inner s a ha).path_isPrefix hx
      have ht := ((inner t b hb).path_isPrefix hy).trans hp
      have he := List.prefix_of_prefix_length_le hs ht (by simp)
      have he := he.eq_of_length (by simp)
      exact hne (by simpa using he)

/-! ## Counting what a group holds -/

/-- A placement is one of a member of the group itself or one that leads into a group. -/
private theorem length_direct_add_firstGroup {placements : List Placement}
    (hn : ∀ placement ∈ placements, placement.1 ≠ []) :
    (placements.filterMap direct?).length + (placements.filterMap firstGroup?).length =
      placements.length := by
  induction placements with
  | nil => rfl
  | cons placement rest ih =>
    have hr := ih fun p hp ↦ hn p (List.mem_cons_of_mem _ hp)
    have hp := hn placement List.mem_cons_self
    obtain ⟨_ | ⟨s, _ | ⟨t, p⟩⟩, o⟩ := placement
    · exact absurd rfl hp
    · simp only [List.filterMap_cons, direct?_one, firstGroup?_one, List.length_cons]
      omega
    · simp only [List.filterMap_cons, direct?_more, firstGroup?_more, List.length_cons]
      omega

/-- A group below sees as many placements as lead into it. -/
private theorem length_inside (segment : String) (placements : List Placement) :
    (placements.filterMap (inside? segment)).length =
      (placements.filterMap firstGroup?).count segment := by
  induction placements with
  | nil => rfl
  | cons placement rest ih =>
    obtain ⟨_ | ⟨s, _ | ⟨t, p⟩⟩, o⟩ := placement
    · exact ih
    · exact ih
    · by_cases hs : s = segment
      · simp [hs, ih]
      · simp [hs, ih]

/-- Counting every element once where it first occurs counts the whole list. -/
private theorem sum_count_eraseDups (as : List String) :
    (as.eraseDups.map fun a ↦ as.count a).sum = as.length := by
  have hp : as.eraseDups.Perm as.dedup :=
    (List.perm_ext_iff_of_nodup (nodup_eraseDups as) as.nodup_dedup).mpr (by simp)
  rw [(hp.map _).sum_eq, List.sum_map_count_dedup_eq_length]

/-- A group counts as many operations as it has placements. -/
private theorem Holds.count_eq (h : Holds name path group placements)
    (hn : ∀ placement ∈ placements, placement.1 ≠ []) : group.count = placements.length := by
  induction h with
  | @intro name path groups placements keys_eq inner ih =>
    have hi : groups.map (fun entry ↦ entry.2.count) =
        (Entries.keys groups).map fun s ↦ (placements.filterMap firstGroup?).count s := by
      rw [Entries.keys, List.map_map]
      apply List.map_congr_left
      rintro ⟨segment, inside⟩ hm
      have hc := ih segment inside hm fun p hp ↦ by
        obtain ⟨outer, _, he⟩ := List.mem_filterMap.mp hp
        exact (inside?_eq_some_iff.mp he).1
      rw [hc, length_inside]
      rfl
    rw [Group.count_eq, hi, keys_eq, sum_count_eraseDups]
    exact length_direct_add_firstGroup hn

/-! ## The whole tree -/

/-- The operations of the group behind some segments are those whose names lead there. -/
theorem filterMap_direct_under (operations : List Operation) (steps : List String) :
    ((operations.map placement).filterMap (under? steps)).filterMap direct? =
      (operations.filter fun operation ↦ groupPath operation = steps).map
        fun operation ↦ (memberKey operation, operation) := by
  rw [List.filterMap_filterMap, List.filterMap_map, ← List.filterMap_eq_map', List.filterMap_filter]
  apply List.filterMap_congr
  intro operation _
  have hd := direct?_under? steps (groupPath operation) (memberKey operation) operation
  rw [groupPath_append_memberKey] at hd
  simpa [placement] using hd

/-- The groups in the group behind some segments are those that names lead through. -/
theorem filterMap_firstGroup_under (operations : List Operation) (steps : List String) :
    ((operations.map placement).filterMap (under? steps)).filterMap firstGroup? =
      operations.filterMap (segmentBelow? steps) := by
  rw [List.filterMap_filterMap, List.filterMap_map]
  apply List.filterMap_congr
  intro operation _
  have hf := firstGroup?_under? steps (groupPath operation) (memberKey operation) operation
  rw [groupPath_append_memberKey] at hf
  exact hf

/-- A group that segments lead to from the root has these segments as its path, and holds what is
behind them. -/
theorem Holds.groupAt_root {root : Group} (h : Holds name [] root placements)
    {steps : List String} {below : Group} (hb : root.groupAt? steps = some below) :
    below.path = steps ∧ ∃ last, Holds last steps below (placements.filterMap (under? steps)) := by
  obtain ⟨last, hl⟩ := h.groupAt hb
  exact ⟨hl.path_eq, last, hl⟩

/-- A listed group is the one that the segments of its path lead to. -/
theorem Holds.groupAt_path {root : Group} (h : Holds name [] root placements) {below : Group}
    (hm : below ∈ root.descendants) : root.groupAt? below.path = some below := by
  obtain ⟨steps, hs⟩ := (h.mem_descendants_iff below).mp hm
  rwa [(h.groupAt_root hs).1]

/-- The tree that grouping returns holds the operations, and is well-formed and fully listed. -/
theorem ofOperations_isTreeOf (name : String) (operations : List Operation) (root : Group)
    (h : ofOperations name operations = .ok root) : root.IsTreeOf name operations := by
  have hs := (ofOperations_ok_iff name operations).mp ⟨root, h⟩
  have hc := compatible_map_placement hs
  have hh : Holds name [] root (operations.map placement) := by
    obtain ⟨root', hr, hh⟩ := exists_tree name hs
    rw [h] at hr
    exact Except.ok.inj hr ▸ hh
  have below (group : Group) (hm : group ∈ root.descendants) :
      ∃ last, Holds last group.path group
        ((operations.map placement).filterMap (under? group.path)) :=
    (hh.groupAt_root (hh.groupAt_path hm)).2
  constructor
  case root_eq => exact ⟨hh.name_eq, hh.path_eq⟩
  case found =>
    intro operation hm
    apply hh.found hc
    rw [groupPath_append_memberKey]
    exact List.mem_map_of_mem hm
  case count_eq =>
    rw [hh.count_eq hc.ne_nil, List.length_map]
  case operations_eq =>
    intro group hm
    obtain ⟨last, hl⟩ := below group hm
    rw [hl.operations_eq, filterMap_direct_under]
  case groups_eq =>
    intro group hm
    obtain ⟨last, hl⟩ := below group hm
    rw [hl.keys_eq, filterMap_firstGroup_under]
  case members_nodup =>
    intro group hm
    obtain ⟨last, hl⟩ := below group hm
    exact hl.nodup_memberNames (hc.under _)
  case inner_eq =>
    intro group hm key inner hi
    obtain ⟨last, hl⟩ := below group hm
    exact ⟨(hl.inner hi).name_eq, (hl.inner hi).path_eq⟩
  case inhabited =>
    intro group hm hr
    obtain ⟨last, hl⟩ := below group hm
    rw [hl.count_eq (hc.under _).ne_nil]
    apply List.length_pos_iff.mpr
    apply hh.under_ne_nil (hh.groupAt_path hm)
    simpa [isRoot] using hr
  case listed =>
    intro steps group
    constructor
    · intro hg
      exact ⟨(hh.mem_descendants_iff group).mpr ⟨steps, hg⟩, (hh.groupAt_root hg).1⟩
    · rintro ⟨hm, rfl⟩
      exact hh.groupAt_path hm
  case ordered => exact hh.ordered

/-- The operations `a.b.c`, `a.d` and `ping` make a tree with the groups `a` and `a.b`. -/
theorem ofOperations_isTreeOf_nested :
    ∃ root, ofOperations "Api" [{ name := "a.b.c" }, { name := "a.d" }, { name := "ping" }] =
        .ok root ∧
      root.IsTreeOf "Api" [{ name := "a.b.c" }, { name := "a.d" }, { name := "ping" }] ∧
      root.descendants.map displayPath = ["Api", "a", "a.b"] := by
  refine ⟨_, rfl, ofOperations_isTreeOf _ _ _ rfl, ?_⟩
  decide

end RpcForge.Group

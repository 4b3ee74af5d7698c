import RpcForge.Proofs.Group.Shape

/-!
# Listing a tree of operations

A tree is read group by group, in the order in which its groups are listed. Each group that the
names of operations lead through is met once, and each operation is met once in the group that its
name leads to.
-/

namespace RpcForge

/-- Elements taken key by key are all elements, as long as each of them has one of the keys and no
key comes twice. -/
private theorem flatMap_filter_perm {α β : Type} [DecidableEq β] (f : α → β) {keys : List β}
    (hk : keys.Nodup) {as : List α} (h : ∀ a ∈ as, f a ∈ keys) :
    (keys.flatMap fun k ↦ as.filter fun a ↦ f a = k).Perm as := by
  induction keys generalizing as with
  | nil =>
    have hn : as = [] := List.eq_nil_iff_forall_not_mem.mpr fun a ha ↦ by simpa using h a ha
    simp [hn]
  | cons k keys ih =>
    obtain ⟨hn, hk⟩ := List.nodup_cons.mp hk
    let others := as.filter fun a ↦ !decide (f a = k)
    have ho : ∀ a ∈ others, f a ∈ keys := by
      intro a ha
      obtain ⟨ha, hne⟩ := List.mem_filter.mp ha
      exact (List.mem_cons.mp (h a ha)).resolve_left (by simpa using hne)
    -- behind the first key, the elements under it are no longer met
    have he : (keys.flatMap fun k' ↦ as.filter fun a ↦ f a = k') =
        keys.flatMap fun k' ↦ others.filter fun a ↦ f a = k' := by
      apply List.flatMap_congr
      intro k' hm
      rw [List.filter_filter]
      apply List.filter_congr
      intro a _
      by_cases ha : f a = k'
      · have hne : k' ≠ k := fun hk' ↦ hn (hk' ▸ hm)
        simp [ha, hne]
      · simp [ha]
    rw [List.flatMap_cons, he]
    exact ((ih hk ho).append_left _).trans (List.filter_append_perm _ _)

namespace Group

/-! ## Ways through a tree -/

/-- Segments lead on from where those before them lead. -/
private theorem groupAt?_append (group : Group) (steps rest : List String) :
    group.groupAt? (steps ++ rest) = (group.groupAt? steps).bind (·.groupAt? rest) := by
  induction steps generalizing group with
  | nil => rfl
  | cons segment steps ih =>
    rw [List.cons_append, groupAt?, groupAt?, Option.bind_assoc]
    congr 1
    funext inner
    exact ih inner

/-- A group only sees operations whose names lead to it or through it. -/
private theorem isPrefix_of_under? {steps p : List String} {key : String} {operation : Operation}
    {inner : Placement} (h : under? steps (p ++ [key], operation) = some inner) : steps <+: p := by
  induction steps generalizing p with
  | nil => exact List.nil_prefix
  | cons segment steps ih =>
    cases p with
    | nil => simp [under?] at h
    | cons s p =>
      rw [List.cons_append, under?_cons_concat] at h
      by_cases he : s = segment
      · rw [if_pos he] at h
        exact List.cons_prefix_cons.mpr ⟨he.symm, ih h⟩
      · simp [he] at h

/-! ## The listed groups -/

theorem mem_descendants_self (group : Group) : group ∈ group.descendants := by
  rw [descendants_eq]
  exact List.mem_cons_self

variable {name : String} {operations : List Operation} {root : Group}

/-- The tree of operations holds where they go. -/
theorem holds_of_ofOperations (h : ofOperations name operations = .ok root) :
    Holds name [] root (operations.map placement) ∧ Compatible (operations.map placement) := by
  have hs := (ofOperations_ok_iff name operations).mp ⟨root, h⟩
  obtain ⟨tree, ht, hh⟩ := exists_tree name hs
  obtain rfl := Except.ok.inj (h.symm.trans ht)
  exact ⟨hh, compatible_map_placement hs⟩

/-- Operations in a tree have different names. -/
theorem nodup_names (h : ofOperations name operations = .ok root) :
    (operations.map Operation.name).Nodup := by
  have hs := (ofOperations_ok_iff name operations).mp ⟨root, h⟩
  rw [List.nodup_iff_pairwise_ne, List.pairwise_map]
  apply hs.imp
  intro a b hab he
  rw [Separate, he] at hab
  exact hab.1 List.prefix_rfl

theorem path_root (h : ofOperations name operations = .ok root) : root.path = [] :=
  (holds_of_ofOperations h).1.path_eq

/-- What is held by a listed group. -/
private theorem holds_of_mem (h : ofOperations name operations = .ok root) {group : Group}
    (hm : group ∈ root.descendants) :
    ∃ last, Holds last group.path group
      ((operations.map placement).filterMap (under? group.path)) := by
  have hh := (holds_of_ofOperations h).1
  exact (hh.groupAt_root (hh.groupAt_path hm)).2

/-- A listed group has the operations whose names lead to it, in the order given. -/
theorem operations_of_mem (h : ofOperations name operations = .ok root) {group : Group}
    (hm : group ∈ root.descendants) :
    group.operations = (operations.filter fun operation ↦ groupPath operation = group.path).map
      fun operation ↦ (memberKey operation, operation) := by
  obtain ⟨last, hl⟩ := holds_of_mem h hm
  rw [hl.operations_eq, filterMap_direct_under]

/-- The members of a listed group are named by the segments that lead on from it to further groups,
in order of first use, and then by the last segments of the names of the operations in it. -/
theorem memberNames_of_mem (h : ofOperations name operations = .ok root) {group : Group}
    (hm : group ∈ root.descendants) :
    group.memberNames = (operations.filterMap (segmentBelow? group.path)).eraseDups ++
      (operations.filter fun operation ↦ groupPath operation = group.path).map memberKey := by
  obtain ⟨last, hl⟩ := holds_of_mem h hm
  rw [memberNames, hl.keys_eq, filterMap_firstGroup_under, operations_of_mem h hm, Entries.keys,
    List.map_map]
  rfl

/-- A group in a listed group has its key as its name and at the end of its path. -/
theorem inner_of_mem (h : ofOperations name operations = .ok root) {group : Group}
    (hm : group ∈ root.descendants) {key : String} {inner : Group}
    (hi : (key, inner) ∈ group.groups) : inner.name = key ∧ inner.path = group.path ++ [key] := by
  obtain ⟨last, hl⟩ := holds_of_mem h hm
  exact ⟨(hl.inner hi).name_eq, (hl.inner hi).path_eq⟩

/-- The groups in a listed group are listed. -/
theorem inner_mem (h : ofOperations name operations = .ok root) {group : Group}
    (hm : group ∈ root.descendants) {key : String} {inner : Group}
    (hi : (key, inner) ∈ group.groups) : inner ∈ root.descendants := by
  have hh := (holds_of_ofOperations h).1
  obtain ⟨last, hl⟩ := holds_of_mem h hm
  rw [hh.mem_descendants_iff]
  refine ⟨group.path ++ [key], ?_⟩
  rw [groupAt?_append, hh.groupAt_path hm, Option.bind_some, groupAt?,
    Entries.get?_of_mem hl.nodup_keys hi]
  rfl

/-- No two listed groups have the same path. -/
theorem nodup_paths (h : ofOperations name operations = .ok root) :
    (root.descendants.map Group.path).Nodup := by
  rw [List.nodup_iff_pairwise_ne, List.pairwise_map]
  apply (holds_of_ofOperations h).1.ordered.imp
  intro earlier later ho he
  exact ho (he ▸ List.prefix_rfl)

/-- Besides the root, the groups at the beginnings of the paths of operations are listed. -/
theorem mem_paths_iff (h : ofOperations name operations = .ok root) (path : List String) :
    path ∈ root.descendants.map Group.path ↔
      path = [] ∨ ∃ operation ∈ operations, path <+: groupPath operation := by
  obtain ⟨hh, hc⟩ := holds_of_ofOperations h
  rw [List.mem_map]
  constructor
  · rintro ⟨group, hm, rfl⟩
    by_cases hp : group.path = []
    · exact .inl hp
    · obtain ⟨inner, hi⟩ :=
        List.exists_mem_of_ne_nil _ (hh.under_ne_nil (hh.groupAt_path hm) hp)
      obtain ⟨_, hi, hu⟩ := List.mem_filterMap.mp hi
      obtain ⟨operation, ho, rfl⟩ := List.mem_map.mp hi
      rw [placement, ← groupPath_append_memberKey] at hu
      exact .inr ⟨operation, ho, isPrefix_of_under? hu⟩
  · rintro (rfl | ⟨operation, ho, rest, hr⟩)
    · exact ⟨root, (hh.mem_descendants_iff root).mpr ⟨[], rfl⟩, hh.path_eq⟩
    · have hm : (groupPath operation ++ [memberKey operation], operation) ∈
          operations.map placement := by
        rw [groupPath_append_memberKey]
        exact List.mem_map_of_mem ho
      obtain ⟨below, hb, -⟩ := hh.found hc hm
      rw [← hr, groupAt?_append] at hb
      obtain ⟨group, hg, -⟩ := Option.bind_eq_some_iff.mp hb
      exact ⟨group, (hh.mem_descendants_iff group).mpr ⟨path, hg⟩, (hh.groupAt_root hg).1⟩

/-- Reading a tree group by group meets every operation once. -/
theorem operations_perm (h : ofOperations name operations = .ok root) :
    (root.descendants.flatMap fun group ↦ Entries.values group.operations).Perm operations := by
  have he : (root.descendants.flatMap fun group ↦ Entries.values group.operations) =
      (root.descendants.map Group.path).flatMap fun path ↦
        operations.filter fun operation ↦ groupPath operation = path := by
    rw [List.flatMap_map]
    apply List.flatMap_congr
    intro group hm
    rw [operations_of_mem h hm, Entries.values, List.map_map]
    exact List.map_id _
  rw [he]
  apply flatMap_filter_perm groupPath (nodup_paths h)
  intro operation ho
  exact (mem_paths_iff h _).mpr (.inr ⟨operation, ho, List.prefix_rfl⟩)

end Group

end RpcForge

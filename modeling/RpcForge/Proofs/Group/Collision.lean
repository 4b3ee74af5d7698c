import RpcForge.Proofs.Group.Placement

/-!
# When operations can be grouped

Operations form a tree exactly if no name, taken as a path, is a beginning of another one. The
order of the operations decides only which of them is reported: the first whose path meets that of
an earlier one, at the end of the shorter of both paths.
-/

namespace RpcForge.Group

/-- The segments of the group that an operation goes to. -/
def groupPath (operation : Operation) : List String :=
  (segments operation.name).dropLast

/-- The key of an operation in its group. -/
def memberKey (operation : Operation) : String :=
  (segments operation.name).getLast?.getD Naming.placeholder

/-- Where an operation goes in the tree of a root. -/
def placement (operation : Operation) : Placement :=
  (segments operation.name, operation)

/-- The names of two operations lead to different places, and neither to a group on the way to the
other. -/
def Separate (a b : Operation) : Prop :=
  Apart (segments a.name) (segments b.name)

instance (a b : Operation) : Decidable (Separate a b) :=
  inferInstanceAs (Decidable (Apart _ _))

/-- Why two placements do not fit together: the earlier one ends where the later one needs a group,
the later one ends at a group that the earlier one needs, or both end at the same place. -/
def collisionMessage (earlier later : Placement) : String :=
  if earlier.1.length < later.1.length then
    "a method already uses this name, so it cannot also be a group"
  else if later.1.length < earlier.1.length then
    "method '" ++ later.2.name ++ "' clashes with a group of the same name"
  else
    "methods '" ++ earlier.2.name ++ "' and '" ++ later.2.name ++ "' map to the same identifier"

/-- The error for a placement that meets an earlier one in the group with a name at a path. It names
the place where the shorter one of both ends. -/
def collision (name : String) (path : List String) (earlier later : Placement) : GenerationError :=
  let shorter := if earlier.1.length ≤ later.1.length then earlier.1 else later.1
  .nameCollision (displayPath { name := name, path := path ++ shorter.dropLast })
    (shorter.getLast?.getD Naming.placeholder) (collisionMessage earlier later)

private theorem piecesBy_ne_nil (isCut : Char → Bool) (text : List Char) :
    Text.piecesBy isCut text ≠ [] := by
  cases text with
  | nil => simp [Text.piecesBy]
  | cons c cs =>
    rw [Text.piecesBy]
    split
    · simp
    · split <;> simp

/-- A name has a segment. -/
private theorem segments_ne_nil (name : String) : segments name ≠ [] := by
  simp [segments, Text.pieces, piecesBy_ne_nil]

/-- The path of the group and the key in it make up the segments of the name. -/
theorem groupPath_append_memberKey (operation : Operation) :
    groupPath operation ++ [memberKey operation] = segments operation.name := by
  have hl := List.getLast?_eq_some_getLast (segments_ne_nil operation.name)
  rw [groupPath, memberKey, hl, Option.getD_some]
  exact List.dropLast_append_getLast _

/-- Adding an operation places it by its segments. -/
private theorem add_eq (root : Group) (operation : Operation) :
    root.add operation = place (memberKey operation) operation root (groupPath operation) := rfl

/-! ## One placement -/

variable {name : String} {path : List String} {group : Group} {placements : List Placement}

/-- An operation is attached under a key that no placement leads to or past. -/
private theorem Holds.attach_ok (h : Holds name path group placements) {key : String}
    (operation : Operation) (free : ∀ p ∈ placements, Apart p.1 [key]) :
    ∃ result, group.attach key operation = .ok result ∧
      Holds name path result (placements ++ [([key], operation)]) := by
  have hg : key ∉ Entries.keys group.groups := by
    rw [h.mem_keys_groups]
    rintro ⟨next, rest, o, hm⟩
    exact not_apart_singleton _ (free _ hm).symm
  have ho : key ∉ Entries.keys group.operations := by
    rw [h.mem_keys_operations]
    rintro ⟨o, hm⟩
    exact not_apart_singleton _ (free _ hm)
  refine ⟨{ group with operations := group.operations ++ [(key, operation)] }, ?_, ?_⟩
  · rw [attach, (Entries.contains_eq_false_iff _ _).mpr hg, (Entries.get?_eq_none_iff _ _).mpr ho,
      Entries.insert_of_not_mem ho]
    rfl
  · have hk : Entries.keys group.groups =
        ((placements ++ [([key], operation)]).filterMap firstGroup?).eraseDups := by
      simp [h.keys_eq, List.filterMap_cons]
    have hi (segment : String) (below : Group) (hm : (segment, below) ∈ group.groups) :
        Holds segment (path ++ [segment]) below
          ((placements ++ [([key], operation)]).filterMap (inside? segment)) := by
      simpa [List.filterMap_cons] using h.inner hm
    have hr : Holds name path ⟨name, path, _, group.groups⟩ _ := .intro hk hi
    rw [List.filterMap_append, ← h.operations_eq] at hr
    rw [h.name_eq, h.path_eq]
    exact hr

/-- An operation is refused under a key that a placement leads to or past. -/
private theorem Holds.attach_error (h : Holds name path group placements)
    (hc : Compatible placements) {key : String} (operation : Operation) {earlier : Placement}
    (hm : earlier ∈ placements) (hn : ¬Apart earlier.1 [key]) :
    group.attach key operation = .error (collision name path earlier ([key], operation)) := by
  obtain ⟨q, o⟩ := earlier
  obtain ⟨s, rest, rfl⟩ := List.exists_cons_of_ne_nil (hc.ne_nil _ hm)
  obtain rfl := eq_of_not_apart hn
  have hd : group.displayPath = displayPath { name := name, path := path } := by
    simp [displayPath, isRoot, h.name_eq, h.path_eq]
  cases rest with
  | nil =>
    have hg : s ∉ Entries.keys group.groups := by
      rw [h.mem_keys_groups]
      rintro ⟨next, rest, o', hm'⟩
      have he := hc.eq_of_not_apart hm hm' (not_apart_singleton _)
      simp at he
    have ho : Entries.get? group.operations s = some o := by
      obtain ⟨o', hg⟩ := Option.isSome_iff_exists.mp
        ((Entries.get?_isSome_iff _ _).mpr ((h.mem_keys_operations s).mpr ⟨o, hm⟩))
      have hm' := Entries.mem_of_get? hg
      rw [h.operations_eq, mem_filterMap_direct] at hm'
      have he := hc.eq_of_not_apart hm hm' (not_apart_singleton _)
      rw [hg, (Prod.mk.inj he).2]
    rw [attach, (Entries.contains_eq_false_iff _ _).mpr hg, ho]
    simp [collision, collisionMessage, hd]
  | cons next rest =>
    have hg : s ∈ Entries.keys group.groups := (h.mem_keys_groups s).mpr ⟨next, rest, o, hm⟩
    rw [attach, (Entries.contains_iff _ _).mpr hg]
    simp [collision, collisionMessage, hd]

/-- A collision below a group is one of the whole paths. -/
private theorem collision_cons (name : String) (path : List String) (segment : String)
    {p q : List String} (hp : p ≠ []) (hq : q ≠ []) (earlier later : Operation) :
    collision segment (path ++ [segment]) (p, earlier) (q, later) =
      collision name path (segment :: p, earlier) (segment :: q, later) := by
  have hr (r : List String) (hr : r ≠ []) :
      displayPath { name := segment, path := path ++ [segment] ++ r.dropLast } =
          displayPath { name := name, path := path ++ (segment :: r).dropLast } ∧
        r.getLast? = (segment :: r).getLast? := by
    constructor
    · simp [displayPath, isRoot, List.dropLast_cons_of_ne_nil hr]
    · rw [List.getLast?_cons_of_ne_nil hr]
  simp only [collision, collisionMessage, List.length_cons, Nat.add_le_add_iff_right,
    Nat.add_lt_add_iff_right]
  split
  · rw [(hr p hp).1, (hr p hp).2]
  · rw [(hr q hq).1, (hr q hq).2]

/-- A group whose inner group has taken one more placement has taken it as well. -/
private theorem Holds.insert_group (h : Holds name path group placements) {segment next : String}
    {rest : List String} {operation : Operation} {below : Group}
    (hb : Holds segment (path ++ [segment]) below
      (placements.filterMap (inside? segment) ++ [(next :: rest, operation)])) :
    Holds name path { group with groups := Entries.insert group.groups segment below }
      (placements ++ [(segment :: next :: rest, operation)]) := by
  have hk : Entries.keys (Entries.insert group.groups segment below) =
      ((placements ++ [(segment :: next :: rest, operation)]).filterMap firstGroup?).eraseDups := by
    rw [Entries.keys_insert, List.filterMap_append]
    simp only [List.filterMap_cons, firstGroup?_more, List.filterMap_nil, eraseDups_concat,
      h.keys_eq, List.mem_eraseDups]
  have hi (s : String) (g : Group) (hm : (s, g) ∈ Entries.insert group.groups segment below) :
      Holds s (path ++ [s]) g
        ((placements ++ [(segment :: next :: rest, operation)]).filterMap (inside? s)) := by
    rw [List.filterMap_append]
    rcases (Entries.mem_insert_iff h.nodup_keys _ _ _ _).mp hm with ⟨rfl, rfl⟩ | ⟨hne, hm⟩
    · simpa [List.filterMap_cons] using hb
    · simpa [List.filterMap_cons, Ne.symm hne] using h.inner hm
  have hr : Holds name path ⟨name, path, _, _⟩ _ := .intro hk hi
  rw [List.filterMap_append, ← h.operations_eq] at hr
  rw [h.name_eq, h.path_eq]
  simpa [List.filterMap_cons] using hr

/-- An operation that meets no placement is put where its path leads. -/
private theorem Holds.place_ok {key : String} {operation : Operation} {steps : List String}
    (h : Holds name path group placements)
    (free : ∀ p ∈ placements, Apart p.1 (steps ++ [key])) :
    ∃ result, place key operation group steps = .ok result ∧
      Holds name path result (placements ++ [(steps ++ [key], operation)]) := by
  induction steps generalizing name path group placements with
  | nil => exact h.attach_ok operation free
  | cons segment steps ih =>
    have ho : segment ∉ Entries.keys group.operations := by
      rw [h.mem_keys_operations]
      rintro ⟨o, hm⟩
      exact not_apart_singleton _ (free _ hm)
    have hf : ∀ p ∈ placements.filterMap (inside? segment), Apart p.1 (steps ++ [key]) := by
      intro p hm
      obtain ⟨outer, hm, he⟩ := List.mem_filterMap.mp hm
      have ha := free _ hm
      rw [(inside?_eq_some_iff.mp he).2] at ha
      exact (apart_cons_iff _ _ _).mp ha
    obtain ⟨below, hp, hb⟩ := ih (h.child segment) hf
    obtain ⟨next, rest, hs⟩ := List.exists_cons_of_ne_nil (l := steps ++ [key]) (by simp)
    refine ⟨{ group with groups := Entries.insert group.groups segment below }, ?_, ?_⟩
    · rw [place, (Entries.contains_eq_false_iff _ _).mpr ho, hp]
      rfl
    · rw [hs] at hb
      rw [List.cons_append, hs]
      exact h.insert_group hb

/-- An operation that meets a placement is refused where the shorter one of both paths ends. -/
private theorem Holds.place_error {key : String} {operation : Operation} {steps : List String}
    (h : Holds name path group placements) (hc : Compatible placements) {earlier : Placement}
    (hm : earlier ∈ placements) (hn : ¬Apart earlier.1 (steps ++ [key])) :
    place key operation group steps =
      .error (collision name path earlier (steps ++ [key], operation)) := by
  induction steps generalizing name path group placements earlier with
  | nil => exact h.attach_error hc operation hm hn
  | cons segment steps ih =>
    obtain ⟨q, o⟩ := earlier
    obtain ⟨s, q, rfl⟩ := List.exists_cons_of_ne_nil (hc.ne_nil _ hm)
    obtain rfl := eq_of_not_apart hn
    by_cases hq : q = []
    · subst hq
      have ho : s ∈ Entries.keys group.operations := (h.mem_keys_operations s).mpr ⟨o, hm⟩
      rw [place, (Entries.contains_iff _ _).mpr ho]
      simp [collision, collisionMessage, displayPath, isRoot, h.name_eq, h.path_eq]
    · have ho : s ∉ Entries.keys group.operations := by
        rw [h.mem_keys_operations]
        rintro ⟨o', hm'⟩
        have he := hc.eq_of_not_apart hm' hm (not_apart_singleton _)
        exact hq (List.cons.inj (Prod.mk.inj he).1).2.symm
      have hi := ih (h.child s) (hc.inside s) ((mem_filterMap_inside hq).mpr hm)
        (fun ha ↦ hn ((apart_cons_iff _ _ _).mpr ha))
      rw [place, (Entries.contains_eq_false_iff _ _).mpr ho, hi,
        collision_cons name path s hq (by simp)]
      rfl

/-! ## All operations -/

/-- An operation that is separate from all before it is added. -/
private theorem Holds.add_ok (h : Holds name path group placements) {operation : Operation}
    (free : ∀ p ∈ placements, Apart p.1 (segments operation.name)) :
    ∃ result, group.add operation = .ok result ∧
      Holds name path result (placements ++ [placement operation]) := by
  rw [← groupPath_append_memberKey] at free
  rw [add_eq, placement, ← groupPath_append_memberKey]
  exact h.place_ok free

/-- An operation that is not separate from one before it is refused. -/
private theorem Holds.add_error (h : Holds name path group placements) (hc : Compatible placements)
    {operation : Operation} {earlier : Placement} (hm : earlier ∈ placements)
    (hn : ¬Apart earlier.1 (segments operation.name)) :
    group.add operation = .error (collision name path earlier (placement operation)) := by
  rw [← groupPath_append_memberKey] at hn
  rw [add_eq, placement, ← groupPath_append_memberKey]
  exact h.place_error hc hm hn

/-- Separate operations have compatible placements. -/
theorem compatible_map_placement {operations : List Operation} (h : operations.Pairwise Separate) :
    Compatible (operations.map placement) where
  ne_nil := by
    intro p hm
    obtain ⟨operation, _, rfl⟩ := List.mem_map.mp hm
    exact segments_ne_nil _
  apart := List.pairwise_map.mpr h

/-- Separate operations form a tree, which holds exactly them. -/
theorem exists_tree (name : String) {operations : List Operation}
    (h : operations.Pairwise Separate) :
    ∃ root, ofOperations name operations = .ok root ∧
      Holds name [] root (operations.map placement) := by
  induction operations using List.reverseRecOn with
  | nil => exact ⟨{ name := name }, rfl, holds_empty name []⟩
  | append_singleton before operation ih =>
    obtain ⟨hb, -, hs⟩ := List.pairwise_append.mp h
    obtain ⟨root, hr, hh⟩ := ih hb
    have hf : ∀ p ∈ before.map placement, Apart p.1 (segments operation.name) := by
      intro p hp
      obtain ⟨earlier, hm, rfl⟩ := List.mem_map.mp hp
      exact hs earlier hm operation (List.mem_singleton_self _)
    obtain ⟨result, ha, hh⟩ := hh.add_ok hf
    refine ⟨result, ?_, by simpa using hh⟩
    rw [ofOperations] at hr ⊢
    rw [List.foldlM_append, hr]
    change [operation].foldlM add root = _
    rw [List.foldlM_cons, ha]
    rfl

/-- Where an operation meets one before it, nothing behind it is looked at. -/
private theorem ofOperations_eq_error (name : String) {before after : List Operation}
    {earlier operation : Operation} (hb : before.Pairwise Separate) (hm : earlier ∈ before)
    (hn : ¬Separate earlier operation) :
    ofOperations name (before ++ operation :: after) =
      .error (collision name [] (placement earlier) (placement operation)) := by
  obtain ⟨root, hr, hh⟩ := exists_tree name hb
  have ha := hh.add_error (compatible_map_placement hb) (List.mem_map_of_mem hm) hn
  rw [ofOperations] at hr ⊢
  rw [List.foldlM_append, hr]
  change (operation :: after).foldlM add root = _
  rw [List.foldlM_cons, ha]
  rfl

/-- Operations that are not all separate have a first one that meets one before it. -/
private theorem exists_first_meeting {operations : List Operation}
    (h : ¬operations.Pairwise Separate) :
    ∃ (before : List Operation) (operation : Operation) (after : List Operation)
      (earlier : Operation), operations = before ++ operation :: after ∧
      before.Pairwise Separate ∧ earlier ∈ before ∧ ¬Separate earlier operation := by
  induction operations using List.reverseRecOn with
  | nil => exact absurd List.Pairwise.nil h
  | append_singleton before operation ih =>
    by_cases hb : before.Pairwise Separate
    · have hm : ¬∀ earlier ∈ before, Separate earlier operation := by
        intro hs
        apply h
        rw [List.pairwise_append]
        exact ⟨hb, List.pairwise_singleton _ _, by simpa using hs⟩
      push Not at hm
      obtain ⟨earlier, hm, hn⟩ := hm
      exact ⟨before, operation, [], earlier, rfl, hb, hm, hn⟩
    · obtain ⟨b, o, a, earlier, he, hb, hm, hn⟩ := ih hb
      exact ⟨b, o, a ++ [operation], earlier, by simp [he], hb, hm, hn⟩

/-- Operations form a tree exactly if they are separate. -/
theorem ofOperations_ok_iff (name : String) (operations : List Operation) :
    (∃ root, ofOperations name operations = .ok root) ↔ operations.Pairwise Separate := by
  constructor
  · rintro ⟨root, hr⟩
    by_contra h
    obtain ⟨before, operation, after, earlier, rfl, hb, hm, hn⟩ := exists_first_meeting h
    rw [ofOperations_eq_error name hb hm hn] at hr
    cases hr
  · intro h
    obtain ⟨root, hr, _⟩ := exists_tree name h
    exact ⟨root, hr⟩

/-- The error is the collision of the first operation that meets one before it. -/
private theorem ofOperations_error_iff (name : String) (operations : List Operation)
    (e : GenerationError) :
    ofOperations name operations = .error e ↔
      ∃ before operation after earlier, operations = before ++ operation :: after ∧
        before.Pairwise Separate ∧ earlier ∈ before ∧ ¬Separate earlier operation ∧
        e = collision name [] (placement earlier) (placement operation) := by
  constructor
  · intro he
    have h : ¬operations.Pairwise Separate := by
      rw [← ofOperations_ok_iff name]
      rintro ⟨root, hr⟩
      rw [he] at hr
      cases hr
    obtain ⟨before, operation, after, earlier, rfl, hb, hm, hn⟩ := exists_first_meeting h
    rw [ofOperations_eq_error name hb hm hn] at he
    exact ⟨before, operation, after, earlier, rfl, hb, hm, hn, (Except.error.inj he).symm⟩
  · rintro ⟨before, operation, after, earlier, rfl, hb, hm, hn, rfl⟩
    exact ofOperations_eq_error name hb hm hn

/-- Grouping succeeds exactly if no two operations have paths of which one is a beginning of the
other, in whatever order they come. Otherwise it fails at the first operation whose path meets that
of an earlier one, with the collision of these two. -/
theorem ofOperations_outcome (name : String) (operations : List Operation) :
    ((∃ root, ofOperations name operations = .ok root) ↔ operations.Pairwise Separate) ∧
    (∀ reordered, reordered.Perm operations →
      ((∃ root, ofOperations name reordered = .ok root) ↔
        ∃ root, ofOperations name operations = .ok root)) ∧
    ∀ e, ofOperations name operations = .error e ↔
      ∃ before operation after earlier, operations = before ++ operation :: after ∧
        before.Pairwise Separate ∧ earlier ∈ before ∧ ¬Separate earlier operation ∧
        e = collision name [] (placement earlier) (placement operation) := by
  refine ⟨ofOperations_ok_iff name operations, ?_, ofOperations_error_iff name operations⟩
  intro reordered hp
  rw [ofOperations_ok_iff, ofOperations_ok_iff]
  exact hp.pairwise_iff fun h ↦ Apart.symm h

/-- A method `math` behind a method `math.add` collides with the group `math` of the root, and the
other order is refused as well. -/
theorem ofOperations_outcome_math :
    ofOperations "Api" [{ name := "math.add" }, { name := "ping" }, { name := "math" }] =
        .error (.nameCollision "Api" "math"
          "method 'math' clashes with a group of the same name") ∧
      ¬∃ root, ofOperations "Api"
        [{ name := "math" }, { name := "math.add" }, { name := "ping" }] = .ok root := by
  have h := ofOperations_outcome "Api"
    [{ name := "math.add" }, { name := "ping" }, { name := "math" }]
  have he := (h.2.2 _).mpr ⟨[{ name := "math.add" }, { name := "ping" }], { name := "math" }, [],
    { name := "math.add" }, rfl, by simp; decide, by simp, by decide, rfl⟩
  have hp : [{ name := "math" }, { name := "math.add" }, { name := "ping" }].Perm
      [({ name := "math.add" } : Operation), { name := "ping" }, { name := "math" }] :=
    (List.perm_append_singleton _ [_, _]).symm
  refine ⟨he.trans (congrArg Except.error (by decide)), ?_⟩
  rw [h.2.1 _ hp, he]
  simp

end RpcForge.Group

import RpcForge.Client.Plan
import RpcForge.Proofs.Except

/-!
# Names of members

When the members of a group can stand in one class of a target language. The members are named from
left to right, so a group is refused at the first one whose name is reserved or stands there
already, and a tree is refused at its first group that is.
-/

namespace RpcForge.Group

/-- Keys can be members of one class: their names differ, and none of them is used otherwise. -/
structure Fit (identifier : String → String) (used : List String) (keys : List String) : Prop where
  /-- The names differ. -/
  nodup : (keys.map identifier).Nodup
  /-- No name is used otherwise. -/
  free : ∀ key ∈ keys, identifier key ∉ used

/-- The first key whose name is used otherwise or is that of a key before it. -/
def FirstMisfit (identifier : String → String) (used : List String) (keys : List String)
    (key : String) : Prop :=
  ∃ before after, keys = before ++ key :: after ∧ Fit identifier used before ∧
    (identifier key ∈ used ∨ identifier key ∈ before.map identifier)

/-- What is said about a member of a group that does not fit. -/
def misfit (identifier : String → String) (reserved : List String) (group : Group) (key : String) :
    GenerationError :=
  .nameCollision group.displayPath (identifier key)
    (if identifier key ∈ reserved then
      "'" ++ key ++ "' renders to a member the generated client class already defines"
    else "'" ++ key ++ "' renders to an identifier that is already in use")

variable {identifier : String → String} {used : List String}

/-- No keys fit. -/
private theorem fit_nil (identifier : String → String) (used : List String) :
    Fit identifier used [] where
  nodup := List.nodup_nil
  free := by simp

/-- A key fits together with others if its name is free and theirs are others. -/
private theorem fit_cons_iff (key : String) (keys : List String) :
    Fit identifier used (key :: keys) ↔
      identifier key ∉ used ∧ Fit identifier (identifier key :: used) keys := by
  constructor
  · intro h
    have hn := List.nodup_cons.mp h.nodup
    refine ⟨h.free key List.mem_cons_self, hn.2, fun other ho ↦ ?_⟩
    rw [List.mem_cons, not_or]
    constructor
    · intro he
      exact hn.1 (he ▸ List.mem_map_of_mem ho)
    · exact h.free other (List.mem_cons_of_mem _ ho)
  · rintro ⟨hk, h⟩
    constructor
    case nodup =>
      apply List.nodup_cons.mpr
      refine ⟨fun hm ↦ ?_, h.nodup⟩
      obtain ⟨other, ho, he⟩ := List.mem_map.mp hm
      exact h.free other ho (by simp [he])
    case free =>
      intro other ho
      rcases List.mem_cons.mp ho with rfl | ho
      · exact hk
      · exact fun hu ↦ h.free other ho (List.mem_cons_of_mem _ hu)

/-- Only what is used matters, not in which order. -/
theorem fit_congr {used' : List String} (h : ∀ name, name ∈ used ↔ name ∈ used')
    (keys : List String) : Fit identifier used keys ↔ Fit identifier used' keys := by
  constructor
  · intro hf
    exact ⟨hf.nodup, fun key hk hu ↦ hf.free key hk ((h _).mpr hu)⟩
  · intro hf
    exact ⟨hf.nodup, fun key hk hu ↦ hf.free key hk ((h _).mp hu)⟩

/-- The first misfit is the first key, or the first misfit behind it. -/
private theorem firstMisfit_cons_iff (first : String) (keys : List String) (key : String) :
    FirstMisfit identifier used (first :: keys) key ↔
      identifier first ∈ used ∧ key = first ∨
        identifier first ∉ used ∧ FirstMisfit identifier (identifier first :: used) keys key := by
  constructor
  · rintro ⟨_ | ⟨k, before⟩, after, he, hf, hm⟩
    · obtain ⟨rfl, rfl⟩ := List.cons.inj he
      exact .inl ⟨by simpa using hm, rfl⟩
    · obtain ⟨rfl, rfl⟩ := List.cons.inj he
      obtain ⟨hk, hf⟩ := (fit_cons_iff _ _).mp hf
      refine .inr ⟨hk, before, after, rfl, hf, ?_⟩
      simpa [or_assoc, or_left_comm] using hm
  · rintro (⟨hu, rfl⟩ | ⟨hk, before, after, rfl, hf, hm⟩)
    · exact ⟨[], keys, rfl, fit_nil _ _, .inl hu⟩
    · refine ⟨first :: before, after, rfl, (fit_cons_iff _ _).mpr ⟨hk, hf⟩, ?_⟩
      simpa [or_assoc, or_left_comm] using hm

variable {reserved : List String} {group : Group}

/-- The rest of the members is accepted if it fits with what is reserved and with those seen. -/
theorem checkMembersAfter_eq_ok_iff (seen keys : List String) :
    checkMembersAfter identifier reserved group seen keys = .ok () ↔
      Fit identifier (reserved ++ seen) keys := by
  induction keys generalizing seen with
  | nil => simp [checkMembersAfter, fit_nil]
  | cons key keys ih =>
    have hu : Fit identifier (identifier key :: (reserved ++ seen)) keys ↔
        Fit identifier (reserved ++ identifier key :: seen) keys :=
      fit_congr (by simp [or_left_comm]) keys
    rw [fit_cons_iff, hu, checkMembersAfter]
    by_cases hr : identifier key ∈ reserved
    · simp [hr]
    · by_cases hs : identifier key ∈ seen
      · simp [hr, hs]
      · simp [hr, hs, ih]

/-- The rest of the members is refused at the first one that does not fit. -/
theorem checkMembersAfter_eq_error_iff (seen keys : List String) (e : GenerationError) :
    checkMembersAfter identifier reserved group seen keys = .error e ↔
      ∃ key, FirstMisfit identifier (reserved ++ seen) keys key ∧
        e = misfit identifier reserved group key := by
  induction keys generalizing seen with
  | nil => simp [checkMembersAfter, FirstMisfit]
  | cons first keys ih =>
    have hu (key : String) :
        FirstMisfit identifier (identifier first :: (reserved ++ seen)) keys key ↔
          FirstMisfit identifier (reserved ++ identifier first :: seen) keys key := by
      have hm (name : String) : name ∈ identifier first :: (reserved ++ seen) ↔
          name ∈ reserved ++ identifier first :: seen := by simp [or_left_comm]
      simp only [FirstMisfit, fit_congr hm, hm]
    simp only [firstMisfit_cons_iff, hu, checkMembersAfter]
    by_cases hr : identifier first ∈ reserved
    · simp [hr, misfit, eq_comm]
    · by_cases hs : identifier first ∈ seen
      · simp [hr, hs, misfit, eq_comm]
      · simp [hr, hs, ih]

/-- A group is accepted if its members fit with what is reserved. -/
theorem checkMembers_eq_ok_iff (group : Group) :
    group.checkMembers identifier reserved = .ok () ↔
      Fit identifier reserved group.memberNames := by
  rw [checkMembers, checkMembersAfter_eq_ok_iff, List.append_nil]

/-- A group is refused at its first member that does not fit. -/
theorem checkMembers_eq_error_iff (group : Group) (e : GenerationError) :
    group.checkMembers identifier reserved = .error e ↔
      ∃ key, FirstMisfit identifier reserved group.memberNames key ∧
        e = misfit identifier reserved group key := by
  rw [checkMembers, checkMembersAfter_eq_error_iff, List.append_nil]

end RpcForge.Group

import Mathlib.Data.List.Nodup
import RpcForge.Document.Schema.Check
import RpcForge.Proofs.Document.Wellformed

/-!
# Rules for schemas

A schema is valid if it obeys the rules by itself and so do all schemas that lie in it, however
deep. The check looks at one level of places after another, and it looks at all of them.
-/

namespace RpcForge

open TypeGrammar (IsName)

/-- The places that say what items are. -/
def Items.places {σ : Type} : Items σ → List (Position σ)
  | .each p => [p]
  | .positional ps => ps

namespace Schema

/-- The places that a schema has for further schemas. -/
def places (s : Schema) : List SchemaPosition :=
  (s.items.map Items.places).getD [] ++ s.prefixItems.getD [] ++
    (s.properties.getD []).map Prod.snd ++ s.additionalProperties.toList ++
    s.allOf.getD [] ++ s.anyOf.getD [] ++ s.oneOf.getD [] ++ s.nestedDefinitions.map Prod.snd

/-- A schema lies within another one if places lead from that one to it. -/
inductive Within (t : Schema) : Schema → Prop
  /-- Every schema lies within itself. -/
  | refl : Within t t
  /-- What lies within a schema in a place lies within the schema that has the place. -/
  | place {s u : Schema} (h : .schema u ∈ s.places) (hw : Within t u) : Within t s

/-- What a schema obeys by itself, whatever stands in its places. -/
@[mk_iff] structure OwnRules (s : Schema) : Prop where
  /-- A pointer to another schema is not empty. -/
  reference : s.keywords.reference ≠ some ""
  /-- A list of types is not empty, and its types differ. -/
  types : ∀ types, s.keywords.types = some (.several types) → types ≠ [] ∧ types.Nodup
  /-- A list of allowed values is not empty. -/
  enum : s.keywords.enum ≠ some []
  /-- Properties have names. -/
  properties : ∀ entry ∈ s.properties.getD [], entry.1 ≠ ""
  /-- Compositions have branches. -/
  compositions : ∀ branches ∈ [s.allOf, s.anyOf, s.oneOf], branches ≠ some []
  /-- Definitions have well-formed names. -/
  definitions : ∀ entry ∈ s.nestedDefinitions, IsName entry.1.toList

/-- All schemas within a schema obey the rules. -/
def Valid (s : Schema) : Prop :=
  ∀ t, Within t s → OwnRules t

/-- A schema is valid if it obeys the rules by itself and the schemas in its places are valid. -/
theorem valid_iff (s : Schema) : s.Valid ↔ OwnRules s ∧ ∀ u, .schema u ∈ s.places → u.Valid := by
  constructor
  · exact fun h ↦ ⟨h s .refl, fun u hu t ht ↦ h t (.place hu ht)⟩
  · rintro ⟨ho, hp⟩ t (_ | ⟨hu, ht⟩)
    · exact ho
    · exact hp _ hu t ht

/-! ## One level -/

theorem checkTypes_eq_ok_iff (k : Keywords) : checkTypes k = .ok () ↔
    ∀ types, k.types = some (.several types) → types ≠ [] ∧ types.Nodup := by
  have hi : Function.Injective SchemaType.name := by
    intro t t' h
    cases t <;> cases t' <;> simp_all [SchemaType.name]
  unfold checkTypes
  split
  · next h => simp [h]
  · next types hne h =>
    rw [Wellformed.checkDistinct_eq_ok_iff, List.nodup_map_iff hi]
    simp only [h, Option.some.injEq, TypeKeyword.several.injEq, forall_eq']
    exact ⟨fun hd ↦ ⟨hne, hd⟩, And.right⟩
  · next hne hs => simpa using fun types h ↦ absurd h (hs types)

theorem checkKeywords_eq_ok_iff (k : Keywords) : checkKeywords k = .ok () ↔
    k.reference ≠ some "" ∧
      (∀ types, k.types = some (.several types) → types ≠ [] ∧ types.Nodup) ∧
      k.enum ≠ some [] := by
  have he : checkEnum k = .ok () ↔ k.enum ≠ some [] := by
    unfold checkEnum
    split
    · next h => simp [h]
    · next h => simpa using h
  simp [checkKeywords, checkReference, checkTypes_eq_ok_iff, he]

theorem checkPosition_eq_ok_iff (p : SchemaPosition) :
    checkPosition p = .ok () ↔ ∀ u, p = .schema u → u.check = .ok () := by
  cases p with
  | flag _ => simp [checkPosition]
  | schema u => simp [checkPosition]

theorem checkPositions_eq_ok_iff (keyword : String) (i : Nat) (ps : List SchemaPosition) :
    checkPositions keyword i ps = .ok () ↔ ∀ p ∈ ps, checkPosition p = .ok () := by
  induction ps generalizing i with
  | nil => simp [checkPositions]
  | cons p ps ih => simp [checkPositions, ih]

theorem checkItems_eq_ok_iff (items : Option (Items Schema)) : checkItems items = .ok () ↔
    ∀ p ∈ (items.map Items.places).getD [], checkPosition p = .ok () := by
  rcases items with _ | p | ps
  · simp [checkItems]
  · simp [checkItems, Items.places]
  · simp [checkItems, Items.places, checkPositions_eq_ok_iff]

theorem checkPrefix_eq_ok_iff (given : Option (List SchemaPosition)) : checkPrefix given = .ok () ↔
    ∀ p ∈ given.getD [], checkPosition p = .ok () := by
  cases given with
  | none => simp [checkPrefix]
  | some ps => simp [checkPrefix, checkPositions_eq_ok_iff]

theorem checkAdditional_eq_ok_iff (given : Option SchemaPosition) :
    checkAdditional given = .ok () ↔ ∀ p ∈ given.toList, checkPosition p = .ok () := by
  cases given with
  | none => simp [checkAdditional]
  | some p => simp [checkAdditional]

theorem checkBranches_eq_ok_iff (keyword : String) (given : Option (List SchemaPosition)) :
    checkBranches keyword given = .ok () ↔
      given ≠ some [] ∧ ∀ p ∈ given.getD [], checkPosition p = .ok () := by
  cases given with
  | none => simp [checkBranches]
  | some ps => simp [checkBranches, checkSomeBranch, checkPositions_eq_ok_iff]

theorem checkProperties_eq_ok_iff (ps : Entries SchemaPosition) : checkProperties ps = .ok () ↔
    ∀ entry ∈ ps, entry.1 ≠ "" ∧ checkPosition entry.2 = .ok () := by
  induction ps with
  | nil => simp [checkProperties]
  | cons entry ps ih => simp [checkProperties, checkPropertyName, ih, and_assoc]

theorem checkDefinitions_eq_ok_iff (ps : Entries SchemaPosition) : checkDefinitions ps = .ok () ↔
    ∀ entry ∈ ps, IsName entry.1.toList ∧ checkPosition entry.2 = .ok () := by
  induction ps with
  | nil => simp [checkDefinitions]
  | cons entry ps ih =>
    simp [checkDefinitions, Wellformed.checkComponentKey_eq_ok_iff, ih, and_assoc]

theorem checkGivenProperties_eq_ok_iff (given : Option (Entries SchemaPosition)) :
    checkGivenProperties given = .ok () ↔
      ∀ entry ∈ given.getD [], entry.1 ≠ "" ∧ checkPosition entry.2 = .ok () := by
  cases given with
  | none => simp [checkGivenProperties]
  | some ps => simp [checkGivenProperties, checkProperties_eq_ok_iff]

theorem checkGivenDefinitions_eq_ok_iff (given : Option (Entries SchemaPosition)) :
    checkGivenDefinitions given = .ok () ↔
      ∀ entry ∈ given.getD [], IsName entry.1.toList ∧ checkPosition entry.2 = .ok () := by
  cases given with
  | none => simp [checkGivenDefinitions]
  | some ps => simp [checkGivenDefinitions, checkDefinitions_eq_ok_iff]

/-- The check asks for the rules of a schema itself and for the check in each of its places. -/
private theorem check_step (s : Schema) :
    s.check = .ok () ↔ OwnRules s ∧ ∀ p ∈ s.places, checkPosition p = .ok () := by
  obtain ⟨keywords, items, prefixItems, properties, additionalProperties, allOf, anyOf, oneOf,
    definitions, defs⟩ := s
  simp only [check, Check.first_cons_eq_ok_iff, Check.first_nil_eq_ok, checkKeywords_eq_ok_iff,
    checkItems_eq_ok_iff, checkPrefix_eq_ok_iff, checkGivenProperties_eq_ok_iff,
    checkAdditional_eq_ok_iff, checkBranches_eq_ok_iff, checkGivenDefinitions_eq_ok_iff,
    ownRules_iff, places, nestedDefinitions, List.forall_mem_append, List.forall_mem_map,
    List.forall_mem_cons, List.map_append, forall_and, and_assoc, List.not_mem_nil, false_implies,
    implies_true, true_and]
  constructor
  · rintro ⟨hr, ht, ht', he, hi, hf, hp, hps, ha, hl, hls, hy, hys, ho, hos, hd, hds, hd', hds', -⟩
    exact ⟨hr, ht, ht', he, hp, hl, hy, ho, hd, hd', hi, hf, hps, ha, hls, hys, hos, hds, hds'⟩
  · rintro ⟨hr, ht, ht', he, hp, hl, hy, ho, hd, hd', hi, hf, hps, ha, hls, hys, hos, hds, hds'⟩
    exact ⟨hr, ht, ht', he, hi, hf, hp, hps, ha, hl, hls, hy, hys, ho, hos, hd, hds, hd', hds',
      trivial⟩

/-! ## All levels -/

private theorem sizeOf_lt_of_mem_getD {α : Type} [SizeOf α] {a : α} {given : Option (List α)}
    (h : a ∈ given.getD []) : sizeOf a < sizeOf given := by
  cases given with
  | none => simp at h
  | some as =>
    have hl : sizeOf a < sizeOf as := List.sizeOf_lt_of_mem h
    simp only [Option.some.sizeOf_spec]
    omega

private theorem sizeOf_lt_of_mem_named {p : SchemaPosition}
    {given : Option (Entries SchemaPosition)} (h : p ∈ (given.getD []).map Prod.snd) :
    sizeOf p < sizeOf given := by
  obtain ⟨⟨name, p⟩, hm, rfl⟩ := List.mem_map.mp h
  have hl := sizeOf_lt_of_mem_getD hm
  rw [Prod.mk.sizeOf_spec] at hl
  exact Nat.lt_of_le_of_lt (Nat.le_add_left _ _) hl

private theorem sizeOf_lt_of_mem_items {p : SchemaPosition} {items : Option (Items Schema)}
    (h : p ∈ (items.map Items.places).getD []) : sizeOf p < sizeOf items := by
  rcases items with _ | q | ps
  · simp at h
  · rw [Option.map_some, Option.getD_some, Items.places, List.mem_singleton] at h
    simp only [h, Option.some.sizeOf_spec, Items.each.sizeOf_spec]
    omega
  · have hl : sizeOf p < sizeOf ps := List.sizeOf_lt_of_mem h
    simp only [Option.some.sizeOf_spec, Items.positional.sizeOf_spec]
    omega

/-- What stands in a place of a schema is smaller than the schema. -/
theorem sizeOf_lt_of_mem_places {s : Schema} {p : SchemaPosition} (h : p ∈ s.places) :
    sizeOf p < sizeOf s := by
  obtain ⟨keywords, items, prefixItems, properties, additionalProperties, allOf, anyOf, oneOf,
    definitions, defs⟩ := s
  simp only [places, nestedDefinitions, List.map_append, List.mem_append, or_assoc] at h
  simp only [Schema.mk.sizeOf_spec]
  rcases h with h | h | h | h | h | h | h | h | h
  · exact Nat.lt_of_lt_of_le (sizeOf_lt_of_mem_items h) (by omega)
  · exact Nat.lt_of_lt_of_le (sizeOf_lt_of_mem_getD h) (by omega)
  · exact Nat.lt_of_lt_of_le (sizeOf_lt_of_mem_named h) (by omega)
  · obtain rfl := Option.mem_toList.mp h
    simp only [Option.some.sizeOf_spec]
    omega
  · exact Nat.lt_of_lt_of_le (sizeOf_lt_of_mem_getD h) (by omega)
  · exact Nat.lt_of_lt_of_le (sizeOf_lt_of_mem_getD h) (by omega)
  · exact Nat.lt_of_lt_of_le (sizeOf_lt_of_mem_getD h) (by omega)
  · exact Nat.lt_of_lt_of_le (sizeOf_lt_of_mem_named h) (by omega)
  · exact Nat.lt_of_lt_of_le (sizeOf_lt_of_mem_named h) (by omega)

/-- A schema passes the check exactly if it is valid. -/
theorem check_eq_ok_iff (s : Schema) : s.check = .ok () ↔ s.Valid := by
  induction hn : sizeOf s using Nat.strongRecOn generalizing s with
  | ind n ih =>
    subst hn
    have hp (u : Schema) (hu : .schema u ∈ s.places) : u.check = .ok () ↔ u.Valid := by
      have hl := sizeOf_lt_of_mem_places hu
      rw [Position.schema.sizeOf_spec] at hl
      exact ih _ (by omega) u rfl
    rw [check_step, valid_iff]
    refine and_congr_right fun _ ↦ ?_
    simp only [checkPosition_eq_ok_iff]
    exact ⟨fun h u hu ↦ (hp u hu).mp (h _ hu u rfl), fun h _ hm u he ↦
      (hp u (he ▸ hm)).mpr (h u (he ▸ hm))⟩

end Schema

end RpcForge

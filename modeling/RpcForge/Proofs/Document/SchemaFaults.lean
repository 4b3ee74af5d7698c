import RpcForge.Proofs.Document.SchemaRules

/-!
# Faults of schemas

A schema is gone through stop by stop: rules for the schema itself and places in which further
schemas are gone through in the same way. The error of a check is that of the first rule that is
broken, told with the chain of places that leads to the schema that breaks it.
-/

namespace RpcForge

namespace DocumentError

/-- The words of an error in one about a larger part: a broken constraint keeps its own, and any
other error is quoted. -/
def words : DocumentError → String
  | .validation message _ => message
  | other => other.message

/-- The error as one about the whole, where a chain of places leads to the part that it is about. -/
def located (e : DocumentError) : List String → DocumentError
  | [] => e
  | place :: chain => .validation e.words (some (".".intercalate (place :: chain)))

/-- Whether an error is about a part as a whole and not about a place in it. -/
def IsWhole (e : DocumentError) : Prop :=
  ∀ message path, e ≠ .validation message (some path)

/-- A chain of places grows at its front. -/
private theorem under_located {e : DocumentError} (h : e.IsWhole) (place : String)
    (chain : List String) :
    (e.located chain).under place = e.located (place :: chain) := by
  cases chain with
  | cons next chain =>
    rw [located, located, under, String.intercalate_cons_cons]
  | nil =>
    rw [located, located, String.intercalate_singleton]
    cases e with
    | validation message path =>
      cases path with
      | none => rfl
      | some path => exact absurd rfl (h message path)
    | _ => rfl

end DocumentError

namespace Schema

/-! ## Stops -/

/-- What comes up when a schema is gone through. -/
inductive Stop where
  /-- A rule for the schema itself. -/
  | rule (check : Check)
  /-- A place, by its name. -/
  | place (name : String) (position : SchemaPosition)

/-- The check that is made at a stop. -/
def Stop.check : Stop → Check
  | .rule check => check
  | .place name position => (checkPosition position).under name

/-- A stop is passed if its rule is kept or if the schema in its place is valid. -/
def Stop.Passes : Stop → Prop
  | .rule check => check = .ok ()
  | .place _ position => ∀ s, position = .schema s → s.Valid

/-- The places under a keyword, by their numbers. -/
def numbered (keyword : String) (ps : List SchemaPosition) : List Stop :=
  ps.zipIdx.map fun (p, i) ↦ .place (keyword ++ "[" ++ toString i ++ "]") p

/-- The places that say what items are. -/
def itemStops : Items Schema → List Stop
  | .each p => [.place "items" p]
  | .positional ps => numbered "items" ps

/-- The branches of a composition behind the rule that there are some. -/
def branchStops (keyword : String) (branches : List SchemaPosition) : List Stop :=
  .rule (checkSomeBranch keyword branches) :: numbered keyword branches

/-- Named places, each behind the rule for its name. -/
def namedStops (keyword : String) (checkName : String → Check) (ps : Entries SchemaPosition) :
    List Stop :=
  ps.flatMap fun (name, p) ↦ [.rule (checkName name), .place (keyword ++ "." ++ name) p]

/-- The stops of a schema, in the order in which it is gone through. -/
def stops (s : Schema) : List Stop :=
  [[.rule (checkReference s.keywords), .rule (checkTypes s.keywords), .rule (checkEnum s.keywords)],
    (s.items.map itemStops).getD [],
    numbered "prefixItems" (s.prefixItems.getD []),
    namedStops "properties" checkPropertyName (s.properties.getD []),
    s.additionalProperties.toList.map (.place "additionalProperties"),
    (s.allOf.map (branchStops "allOf")).getD [],
    (s.anyOf.map (branchStops "anyOf")).getD [],
    (s.oneOf.map (branchStops "oneOf")).getD [],
    namedStops "definitions" Wellformed.checkComponentKey s.nestedDefinitions].flatten

/-- A chain of places leads from a schema to one that lies in it. -/
inductive Leads : List String → Schema → Schema → Prop
  /-- No place leads to the schema itself. -/
  | nil {s : Schema} : Leads [] s s
  /-- A place leads to the schema that stands in it. -/
  | cons {name : String} {chain : List String} {s u t : Schema}
    (h : .place name (.schema u) ∈ s.stops) (ht : Leads chain u t) : Leads (name :: chain) s t

/-- The first rule that is broken when a schema is gone through, and the chain of places that leads
to it. -/
inductive FirstFault : Schema → List String → DocumentError → Prop
  /-- A rule for the schema itself. -/
  | here {s : Schema} {before after : List Stop} {e : DocumentError}
    (h : s.stops = before ++ .rule (.error e) :: after) (hb : ∀ stop ∈ before, stop.Passes) :
    FirstFault s [] e
  /-- A rule for the schema in a place, or for one further inside. -/
  | inside {s u : Schema} {before after : List Stop} {name : String} {chain : List String}
    {e : DocumentError} (h : s.stops = before ++ .place name (.schema u) :: after)
    (hb : ∀ stop ∈ before, stop.Passes) (hf : FirstFault u chain e) :
    FirstFault s (name :: chain) e

/-! ## The check, stop by stop -/

private theorem checkPositions_eq_first (keyword : String) (i : Nat) (ps : List SchemaPosition) :
    checkPositions keyword i ps = .first ((ps.zipIdx i).map fun (p, j) ↦
      (checkPosition p).under (keyword ++ "[" ++ toString j ++ "]")) := by
  induction ps generalizing i with
  | nil => rfl
  | cons p ps ih =>
    rw [checkPositions, ih, List.zipIdx_cons, List.map_cons]
    exact Check.first_append_first [_] _

private theorem checkPositions_numbered (keyword : String) (ps : List SchemaPosition) :
    checkPositions keyword 0 ps = .first ((numbered keyword ps).map Stop.check) := by
  rw [checkPositions_eq_first, numbered, List.map_map]
  rfl

private theorem checkItems_eq_first (items : Option (Items Schema)) :
    checkItems items = .first (((items.map itemStops).getD []).map Stop.check) := by
  rcases items with _ | p | ps
  · rfl
  · exact (Check.first_singleton _).symm
  · exact checkPositions_numbered "items" ps

private theorem checkPrefix_eq_first (given : Option (List SchemaPosition)) :
    checkPrefix given = .first ((numbered "prefixItems" (given.getD [])).map Stop.check) := by
  cases given with
  | none => rfl
  | some ps => exact checkPositions_numbered "prefixItems" ps

private theorem checkAdditional_eq_first (given : Option SchemaPosition) :
    checkAdditional given =
      .first ((given.toList.map (.place "additionalProperties")).map Stop.check) := by
  cases given with
  | none => rfl
  | some p => exact (Check.first_singleton _).symm

private theorem checkBranches_eq_first (keyword : String) (given : Option (List SchemaPosition)) :
    checkBranches keyword given =
      .first (((given.map (branchStops keyword)).getD []).map Stop.check) := by
  cases given with
  | none => rfl
  | some ps =>
    rw [checkBranches, checkPositions_numbered]
    exact Check.first_append_first [_] _

private theorem checkProperties_eq_first (ps : Entries SchemaPosition) : checkProperties ps =
    .first ((namedStops "properties" checkPropertyName ps).map Stop.check) := by
  induction ps with
  | nil => rfl
  | cons entry ps ih =>
    rw [checkProperties, ih]
    exact Check.first_append_first [_, _] _

private theorem checkDefinitions_eq_first (ps : Entries SchemaPosition) : checkDefinitions ps =
    .first ((namedStops "definitions" Wellformed.checkComponentKey ps).map Stop.check) := by
  induction ps with
  | nil => rfl
  | cons entry ps ih =>
    rw [checkDefinitions, ih]
    exact Check.first_append_first [_, _] _

private theorem checkGivenProperties_eq_first (given : Option (Entries SchemaPosition)) :
    checkGivenProperties given =
      .first ((namedStops "properties" checkPropertyName (given.getD [])).map Stop.check) := by
  cases given with
  | none => rfl
  | some ps => exact checkProperties_eq_first ps

private theorem checkGivenDefinitions_eq_first (given : Option (Entries SchemaPosition)) :
    checkGivenDefinitions given = .first ((namedStops "definitions" Wellformed.checkComponentKey
      (given.getD [])).map Stop.check) := by
  cases given with
  | none => rfl
  | some ps => exact checkDefinitions_eq_first ps

private theorem namedStops_append (keyword : String) (checkName : String → Check)
    (ps qs : Entries SchemaPosition) : namedStops keyword checkName (ps ++ qs) =
      namedStops keyword checkName ps ++ namedStops keyword checkName qs :=
  List.flatMap_append

/-- The check of a schema is made stop by stop. -/
private theorem check_eq_first (s : Schema) : s.check = .first (s.stops.map Stop.check) := by
  obtain ⟨keywords, items, prefixItems, properties, additionalProperties, allOf, anyOf, oneOf,
    definitions, defs⟩ := s
  simp only [check, checkKeywords, checkItems_eq_first, checkPrefix_eq_first,
    checkGivenProperties_eq_first, checkAdditional_eq_first, checkBranches_eq_first,
    checkGivenDefinitions_eq_first]
  simp only [stops, nestedDefinitions, namedStops_append, List.flatten_cons, List.map_append,
    List.append_assoc]
  exact Check.first_map_first [_, _, _, _, _, _, _, _, _, _]

theorem Stop.check_eq_ok_iff (stop : Stop) : stop.check = .ok () ↔ stop.Passes := by
  cases stop with
  | rule check => rfl
  | place name position =>
    simp only [Stop.check, Check.under_eq_ok_iff, checkPosition_eq_ok_iff, Schema.check_eq_ok_iff,
      Stop.Passes]

/-! ## What stands at the stops -/

@[simp] theorem rule_not_mem_numbered (keyword : String) (ps : List SchemaPosition) (c : Check) :
    .rule c ∉ numbered keyword ps := by
  simp [numbered]

@[simp] theorem exists_place_mem_numbered (keyword : String) (ps : List SchemaPosition)
    (p : SchemaPosition) : (∃ name, .place name p ∈ numbered keyword ps) ↔ p ∈ ps := by
  simp [numbered, List.mem_iff_getElem?]

@[simp] theorem rule_mem_namedStops (keyword : String) (checkName : String → Check)
    (ps : Entries SchemaPosition) (c : Check) :
    .rule c ∈ namedStops keyword checkName ps ↔ ∃ entry ∈ ps, c = checkName entry.1 := by
  simp [namedStops]

@[simp] theorem exists_place_mem_namedStops (keyword : String) (checkName : String → Check)
    (ps : Entries SchemaPosition) (p : SchemaPosition) :
    (∃ name, .place name p ∈ namedStops keyword checkName ps) ↔ p ∈ ps.map Prod.snd := by
  simp [namedStops]

@[simp] theorem rule_not_mem_itemStops (items : Option (Items Schema)) (c : Check) :
    .rule c ∉ (items.map itemStops).getD [] := by
  rcases items with _ | p | ps <;> simp [itemStops]

@[simp] theorem exists_place_mem_itemStops (items : Option (Items Schema)) (p : SchemaPosition) :
    (∃ name, .place name p ∈ (items.map itemStops).getD []) ↔
      p ∈ (items.map Items.places).getD [] := by
  rcases items with _ | q | ps <;> simp [itemStops, Items.places]

@[simp] theorem rule_mem_branchStops (keyword : String) (given : Option (List SchemaPosition))
    (c : Check) : .rule c ∈ (given.map (branchStops keyword)).getD [] ↔
      ∃ branches, given = some branches ∧ c = checkSomeBranch keyword branches := by
  cases given with
  | none => simp
  | some ps => simp [branchStops]

@[simp] theorem exists_place_mem_branchStops (keyword : String)
    (given : Option (List SchemaPosition)) (p : SchemaPosition) :
    (∃ name, .place name p ∈ (given.map (branchStops keyword)).getD []) ↔ p ∈ given.getD [] := by
  cases given with
  | none => simp
  | some ps => simp [branchStops]

/-- The rules for a schema are those for its keywords, for the names of its properties and
definitions and for its compositions. -/
private theorem rule_mem_stops_iff (s : Schema) (c : Check) : .rule c ∈ s.stops ↔
    c ∈ [checkReference s.keywords, checkTypes s.keywords, checkEnum s.keywords] ∨
      (∃ entry ∈ s.properties.getD [], c = checkPropertyName entry.1) ∨
      (∃ composition ∈ [("allOf", s.allOf), ("anyOf", s.anyOf), ("oneOf", s.oneOf)],
        ∃ branches, composition.2 = some branches ∧ c = checkSomeBranch composition.1 branches) ∨
      ∃ entry ∈ s.nestedDefinitions, c = Wellformed.checkComponentKey entry.1 := by
  simp [stops, or_assoc]

/-- The places among the stops of a schema are the places that it has. -/
private theorem exists_place_mem_stops_iff (s : Schema) (p : SchemaPosition) :
    (∃ name, .place name p ∈ s.stops) ↔ p ∈ s.places := by
  simp [stops, places, exists_or]

theorem checkPropertyName_eq_ok_iff (name : String) :
    checkPropertyName name = .ok () ↔ name ≠ "" := by
  simp [checkPropertyName]

theorem checkSomeBranch_eq_ok_iff (keyword : String) (branches : List SchemaPosition) :
    checkSomeBranch keyword branches = .ok () ↔ branches ≠ [] := by
  simp [checkSomeBranch]

/-- A schema obeys the rules by itself exactly if no rule is broken at one of its stops. -/
private theorem ownRules_iff_rules (s : Schema) :
    OwnRules s ↔ ∀ c, .rule c ∈ s.stops → c = .ok () := by
  have hk := checkKeywords_eq_ok_iff s.keywords
  rw [checkKeywords, Check.first_eq_ok_iff] at hk
  simp only [rule_mem_stops_iff, or_imp, forall_and]
  rw [hk]
  constructor
  · intro h
    refine ⟨⟨h.reference, h.types, h.enum⟩, ?_, ?_, ?_⟩
    · rintro _ ⟨entry, he, rfl⟩
      exact (checkPropertyName_eq_ok_iff _).mpr (h.properties entry he)
    · rintro _ ⟨composition, hc, branches, hb, rfl⟩
      refine (checkSomeBranch_eq_ok_iff _ _).mpr fun hn ↦ ?_
      exact h.compositions _ (List.mem_map_of_mem hc) (hn ▸ hb)
    · rintro _ ⟨entry, he, rfl⟩
      exact (Wellformed.checkComponentKey_eq_ok_iff _).mpr (h.definitions entry he)
  · rintro ⟨⟨hr, ht, he⟩, hp, hb, hd⟩
    refine ⟨hr, ht, he, fun entry he ↦ ?_, fun given hg ↦ ?_, fun entry he ↦ ?_⟩
    · exact (checkPropertyName_eq_ok_iff _).mp (hp _ ⟨entry, he, rfl⟩)
    · rintro rfl
      obtain ⟨composition, hc, he⟩ : ∃ composition ∈
          [("allOf", s.allOf), ("anyOf", s.anyOf), ("oneOf", s.oneOf)], composition.2 = some [] :=
        List.mem_map.mp hg
      exact (checkSomeBranch_eq_ok_iff _ _).mp (hb _ ⟨composition, hc, [], he, rfl⟩) rfl
    · exact (Wellformed.checkComponentKey_eq_ok_iff _).mp (hd _ ⟨entry, he, rfl⟩)

/-- The error of a broken rule is about the schema as a whole. -/
private theorem isWhole_of_rule_mem_stops {s : Schema} {e : DocumentError}
    (h : .rule (.error e) ∈ s.stops) : e.IsWhole := by
  intro message path he
  subst he
  simp only [rule_mem_stops_iff, List.mem_cons, List.not_mem_nil, or_false] at h
  rcases h with (h | h | h) | ⟨entry, -, h⟩ | ⟨composition, -, branches, -, h⟩ | ⟨entry, -, h⟩
  · unfold checkReference at h
    split at h <;> cases h
  · unfold checkTypes Wellformed.checkDistinct at h
    repeat' split at h
    all_goals cases h
  · unfold checkEnum at h
    split at h <;> cases h
  · unfold checkPropertyName at h
    split at h <;> cases h
  · unfold checkSomeBranch at h
    split at h <;> cases h
  · unfold Wellformed.checkComponentKey Check.broken at h
    repeat' split at h
    all_goals cases h

/-! ## The first fault -/

variable {s t : Schema} {chain : List String} {fault : DocumentError}

/-- The schema to which a chain of places leads lies within the one from which it leads. -/
theorem Leads.within (h : Leads chain s t) : Within t s := by
  induction h with
  | nil => exact .refl
  | cons h _ ih => exact .place ((exists_place_mem_stops_iff _ _).mp ⟨_, h⟩) ih

/-- A first fault is one of the schema to which the chain leads. -/
private theorem FirstFault.exists_leads (h : FirstFault s chain fault) :
    ∃ t, Leads chain s t ∧ FirstFault t [] fault := by
  induction h with
  | here h hb => exact ⟨_, .nil, .here h hb⟩
  | inside h _ _ ih =>
    obtain ⟨t, ht, hr⟩ := ih
    exact ⟨t, .cons (h ▸ List.mem_append_cons_self) ht, hr⟩

private theorem FirstFault.rule_mem_stops (h : FirstFault s [] fault) :
    .rule (.error fault) ∈ s.stops := by
  cases h with
  | here h _ => exact h ▸ List.mem_append_cons_self

private theorem FirstFault.isWhole (h : FirstFault s chain fault) : fault.IsWhole := by
  obtain ⟨t, -, ht⟩ := h.exists_leads
  exact isWhole_of_rule_mem_stops ht.rule_mem_stops

private theorem FirstFault.not_ownRules (h : FirstFault s [] fault) : ¬OwnRules s :=
  fun ho ↦ nomatch (ownRules_iff_rules s).mp ho _ h.rule_mem_stops

/-- A stop at which a check fails is a broken rule or a place with a schema whose check fails. -/
theorem Stop.check_eq_error_iff (stop : Stop) (e : DocumentError) : stop.check = .error e ↔
    stop = .rule (.error e) ∨ ∃ name u inner, stop = .place name (.schema u) ∧
      u.check = .error inner ∧ e = inner.under name := by
  cases stop with
  | rule check => simp [Stop.check]
  | place name position =>
    cases position with
    | flag b => simp [Stop.check, checkPosition, Check.under, Except.mapError]
    | schema u =>
      simp only [Stop.check, checkPosition, Check.under, mapError_eq_error_iff, reduceCtorEq,
        false_or, Stop.place.injEq, Position.schema.injEq]
      constructor
      · rintro ⟨inner, hu, rfl⟩
        exact ⟨name, u, inner, ⟨rfl, rfl⟩, hu, rfl⟩
      · rintro ⟨_, _, inner, ⟨rfl, rfl⟩, hu, rfl⟩
        exact ⟨inner, hu, rfl⟩

/-- A check of stops fails at the first stop that is not passed. -/
private theorem check_eq_error_iff_stop (s : Schema) (e : DocumentError) : s.check = .error e ↔
    ∃ (before : List Stop) (stop : Stop) (after : List Stop),
      s.stops = before ++ stop :: after ∧ stop.check = .error e ∧
        ∀ stop ∈ before, stop.Passes := by
  rw [check_eq_first, Check.first_eq_error_iff]
  constructor
  · rintro ⟨checks, rest, h, hb⟩
    obtain ⟨before, rest', hs, rfl, hr⟩ := List.map_eq_append_iff.mp h
    obtain ⟨stop, after, rfl, he, -⟩ := List.map_eq_cons_iff.mp hr
    exact ⟨before, stop, after, hs, he, fun stop hm ↦
      stop.check_eq_ok_iff.mp (hb _ (List.mem_map_of_mem hm))⟩
  · rintro ⟨before, stop, after, hs, he, hb⟩
    refine ⟨before.map Stop.check, after.map Stop.check, ?_, ?_⟩
    · rw [hs, List.map_append, List.map_cons, he]
    · exact List.forall_mem_map.mpr fun stop hm ↦ stop.check_eq_ok_iff.mpr (hb stop hm)

private theorem sizeOf_lt_of_place_mem_stops {s u : Schema} {name : String}
    (h : .place name (.schema u) ∈ s.stops) : sizeOf u < sizeOf s := by
  have hl := sizeOf_lt_of_mem_places ((exists_place_mem_stops_iff s _).mp ⟨name, h⟩)
  rw [Position.schema.sizeOf_spec] at hl
  omega

/-- The check of a schema fails with its first fault, put under the places that lead to it. -/
theorem check_eq_error_iff (s : Schema) (e : DocumentError) : s.check = .error e ↔
    ∃ chain fault, FirstFault s chain fault ∧ e = fault.located chain := by
  induction hn : sizeOf s using Nat.strongRecOn generalizing s e with
  | ind n ih =>
    subst hn
    rw [check_eq_error_iff_stop]
    constructor
    · rintro ⟨before, stop, after, hs, he, hb⟩
      rcases stop.check_eq_error_iff e |>.mp he with rfl | ⟨name, u, inner, rfl, hu, rfl⟩
      · exact ⟨[], e, .here hs hb, rfl⟩
      · have hl := sizeOf_lt_of_place_mem_stops (hs ▸ List.mem_append_cons_self)
        obtain ⟨chain, fault, hf, rfl⟩ := (ih _ hl u inner rfl).mp hu
        exact ⟨name :: chain, fault, .inside hs hb hf,
          DocumentError.under_located hf.isWhole name chain⟩
    · rintro ⟨_, fault, ⟨hs, hb⟩ | ⟨hs, hb, hf⟩, rfl⟩
      · exact ⟨_, _, _, hs, rfl, hb⟩
      · next u before after name chain =>
        have hl := sizeOf_lt_of_place_mem_stops (hs ▸ List.mem_append_cons_self)
        have hu := (ih _ hl u _ rfl).mpr ⟨chain, fault, hf, rfl⟩
        refine ⟨_, _, _, hs, (Stop.check_eq_error_iff _ _).mpr (.inr ⟨name, u, _, rfl, hu, ?_⟩), hb⟩
        exact (DocumentError.under_located hf.isWhole name chain).symm

/-- The check of a schema passes exactly if all schemas within it obey the rules. Otherwise it
fails with the first rule that is broken when the schema is gone through, told with the chain of
places that leads to the schema that breaks it. -/
theorem check_outcome (s : Schema) :
    (s.check = .ok () ↔ ∀ t, Within t s → OwnRules t) ∧
      (∀ e, s.check = .error e ↔
        ∃ chain fault, FirstFault s chain fault ∧ e = fault.located chain) ∧
      ∀ chain fault, FirstFault s chain fault →
        fault.IsWhole ∧
          ∃ t, Leads chain s t ∧ Within t s ∧ ¬OwnRules t ∧ FirstFault t [] fault := by
  refine ⟨check_eq_ok_iff s, check_eq_error_iff s, fun chain fault hf ↦ ⟨hf.isWhole, ?_⟩⟩
  obtain ⟨t, ht, hr⟩ := hf.exists_leads
  exact ⟨t, ht, ht.within, hr.not_ownRules, hr⟩

example : (ofAny [ofType .string, withProperty {} "bad" (ofTypes [])]).check =
    .error (.validation "JSON Schema error: type list cannot be empty"
      (some "anyOf[1].properties.bad")) := by
  rfl

end Schema

end RpcForge

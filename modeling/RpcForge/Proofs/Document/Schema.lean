import RpcForge.Document.Schema.Codec
import RpcForge.Proofs.Document.Fields

/-!
# Schemas in normal form

Reading a schema and writing it gives its normal form, from which the same schema is read, however
deep schemas are nested. The functions for the places that a keyword holds are put as reading and
writing fields first, so that a schema is treated as any other record.
-/

namespace RpcForge

open RpcForge.Json

private theorem SchemaType.name_of_ofName? {text : String} {type : SchemaType}
    (h : ofName? text = some type) : type.name = text := by
  simpa using List.find?_some h

namespace Schema

variable {members : Entries Value}

/-! ## Places for schemas -/

private theorem buildPositions_eq_map (vs : List Value) :
    buildPositions vs = vs.map buildPosition := by
  induction vs with
  | nil => rfl
  | cons v vs ih => rw [buildPositions, ih, List.map_cons]

private theorem buildNamed_eq_mapValues (members : Entries Value) :
    buildNamed members = Members.mapValues buildPosition members := by
  induction members with
  | nil => rfl
  | cons member rest ih =>
    rw [buildNamed, ih]
    rfl

private theorem positionsToValues_eq_map (ps : List SchemaPosition) :
    positionsToValues ps = ps.map positionToValue := by
  induction ps with
  | nil => rfl
  | cons p ps ih => rw [positionsToValues, ih, List.map_cons]

private theorem namedToMembers_eq_mapValues (ps : Entries SchemaPosition) :
    namedToMembers ps = Members.mapValues positionToValue ps := by
  induction ps with
  | nil => rfl
  | cons p ps ih =>
    rw [namedToMembers, ih]
    rfl

/-- The places for schemas in the value of the keyword under a key. -/
def nest (key : String) (v : Value) : Nested :=
  match form? key, v with
  | _, .null => .none
  | some .single, v => .one (buildPosition v)
  | some .list, .array vs => .many (buildPositions vs)
  | some .singleOrList, .array vs => .many (buildPositions vs)
  | some .singleOrList, v => .one (buildPosition v)
  | some .named, .object members => .named (buildNamed members)
  | _, _ => .none

private theorem buildNested_eq_map (members : Entries Value) :
    buildNested members = members.map fun member ↦ (member.1, nest member.1 member.2) := by
  induction members with
  | nil => rfl
  | cons member rest ih =>
    obtain ⟨key, v⟩ := member
    unfold buildNested
    rw [ih]
    rfl

private theorem get?_buildNested (members : Entries Value) (key : String) :
    Entries.get? (buildNested members) key = (Entries.get? members key).map (nest key) := by
  rw [buildNested_eq_map, Entries.get?_map]

/-- A keyword with one place for a schema. -/
private theorem one?_buildNested (key : String) (hf : form? key = some .single)
    (members : Entries Value) :
    (Entries.get? (buildNested members) key).bind Nested.one? =
      (Members.present? members key).map buildPosition := by
  rw [get?_buildNested, Members.present?]
  cases Entries.get? members key with
  | none => rfl
  | some v =>
    rw [Option.map_some, Option.bind_some, nest.eq_def, hf]
    simp only [buildPositions_eq_map, buildNamed_eq_mapValues]
    cases v <;> rfl

/-- A keyword with a list of places for schemas. -/
private theorem many?_buildNested (key : String) (hf : form? key = some .list)
    (members : Entries Value) :
    (Entries.get? (buildNested members) key).bind Nested.many? =
      (Members.items? members key).map (List.map buildPosition) := by
  rw [get?_buildNested, Members.items?]
  cases Entries.get? members key with
  | none => rfl
  | some v =>
    rw [Option.map_some, Option.bind_some, nest.eq_def, hf]
    simp only [buildPositions_eq_map, buildNamed_eq_mapValues]
    cases v <;> rfl

/-- A keyword with named places for schemas. -/
private theorem named?_buildNested (key : String) (hf : form? key = some .named)
    (members : Entries Value) :
    (Entries.get? (buildNested members) key).bind Nested.named? =
      (Members.members? members key).map (Members.mapValues buildPosition) := by
  rw [get?_buildNested, Members.members?]
  cases Entries.get? members key with
  | none => rfl
  | some v =>
    rw [Option.map_some, Option.bind_some, nest.eq_def, hf]
    simp only [buildPositions_eq_map, buildNamed_eq_mapValues]
    cases v <;> rfl

/-- The keyword for items in a value of the right shape. -/
def buildItems : Value → Option (Items Schema)
  | .null => none
  | .array vs => some (.positional (vs.map buildPosition))
  | v => some (.each (buildPosition v))

/-- The keyword for items as it is written. -/
def itemsToValue : Items Schema → Value
  | .each p => positionToValue p
  | .positional ps => .array (ps.map positionToValue)

private theorem items?_buildNested (members : Entries Value) :
    (Entries.get? (buildNested members) "items").bind Nested.items? =
      (Entries.get? members "items").bind buildItems := by
  have hf : form? "items" = some .singleOrList := rfl
  rw [get?_buildNested]
  cases Entries.get? members "items" with
  | none => rfl
  | some v =>
    rw [Option.map_some, Option.bind_some, nest.eq_def, hf]
    simp only [buildPositions_eq_map, buildNamed_eq_mapValues]
    cases v <;> rfl

/-- A schema is read field by field like any other record. -/
private theorem assemble_buildNested (members : Entries Value) :
    assemble members (buildNested members) =
      { keywords := buildKeywords members
        items := (Entries.get? members "items").bind buildItems
        prefixItems := (Members.items? members "prefixItems").map (List.map buildPosition)
        properties :=
          (Members.members? members "properties").map (Members.mapValues buildPosition)
        additionalProperties :=
          (Members.present? members "additionalProperties").map buildPosition
        allOf := (Members.items? members "allOf").map (List.map buildPosition)
        anyOf := (Members.items? members "anyOf").map (List.map buildPosition)
        oneOf := (Members.items? members "oneOf").map (List.map buildPosition)
        definitions :=
          (Members.members? members "definitions").map (Members.mapValues buildPosition)
        defs := (Members.members? members "$defs").map (Members.mapValues buildPosition) } := by
  rw [assemble, items?_buildNested, many?_buildNested "prefixItems" rfl,
    named?_buildNested "properties" rfl, one?_buildNested "additionalProperties" rfl,
    many?_buildNested "allOf" rfl, many?_buildNested "anyOf" rfl, many?_buildNested "oneOf" rfl,
    named?_buildNested "definitions" rfl, named?_buildNested "$defs" rfl]

private theorem givenItems_eq (key : String) (items : Option (Items Schema)) :
    givenItems key items = Members.given key itemsToValue items := by
  cases items with
  | none => rfl
  | some items =>
    cases items with
    | each p => rfl
    | positional ps =>
      rw [givenItems, positionsToValues_eq_map]
      rfl

private theorem givenPosition_eq (key : String) (p : Option SchemaPosition) :
    givenPosition key p = Members.given key positionToValue p := by
  cases p <;> rfl

private theorem givenPositions_eq (key : String) (ps : Option (List SchemaPosition)) :
    givenPositions key ps = Members.given key (fun ps ↦ .array (ps.map positionToValue)) ps := by
  cases ps with
  | none => rfl
  | some ps =>
    rw [givenPositions, positionsToValues_eq_map]
    rfl

private theorem givenNamed_eq (key : String) (ps : Option (Entries SchemaPosition)) :
    givenNamed key ps =
      Members.given key (fun ps ↦ .object (Members.mapValues positionToValue ps)) ps := by
  cases ps with
  | none => rfl
  | some ps =>
    rw [givenNamed, namedToMembers_eq_mapValues]
    rfl

/-- A schema is written field by field like any other record. -/
private theorem toValue_eq (s : Schema) : s.toValue = .object
    (Members.given "$id" .string s.keywords.id ++
      Members.given "$ref" .string s.keywords.reference ++
      Members.given "title" .string s.keywords.title ++
      Members.given "description" .string s.keywords.description ++
      Members.given "default" id s.keywords.default ++
      Members.given "examples" .array s.keywords.examples ++
      Members.given "type" TypeKeyword.toValue s.keywords.types ++
      Members.given "enum" .array s.keywords.enum ++
      Members.given "const" id s.keywords.const ++
      Members.given "format" .string s.keywords.format ++
      Members.given "items" itemsToValue s.items ++
      Members.given "prefixItems" (fun ps ↦ .array (ps.map positionToValue)) s.prefixItems ++
      Members.given "uniqueItems" .bool s.keywords.uniqueItems ++
      Members.given "required" .ofStrings s.keywords.required ++
      Members.given "properties" (fun ps ↦ .object (Members.mapValues positionToValue ps))
        s.properties ++
      Members.given "additionalProperties" positionToValue s.additionalProperties ++
      Members.given "allOf" (fun ps ↦ .array (ps.map positionToValue)) s.allOf ++
      Members.given "anyOf" (fun ps ↦ .array (ps.map positionToValue)) s.anyOf ++
      Members.given "oneOf" (fun ps ↦ .array (ps.map positionToValue)) s.oneOf ++
      Members.given "definitions" (fun ps ↦ .object (Members.mapValues positionToValue ps))
        s.definitions ++
      Members.given "$defs" (fun ps ↦ .object (Members.mapValues positionToValue ps)) s.defs ++
      s.keywords.others) := by
  cases s
  rw [toValue]
  simp only [givenItems_eq, givenPosition_eq, givenPositions_eq, givenNamed_eq]

/-! ## Schemas -/

open RpcForge.Part

/-- What is no fault in a list of type names is the name of a type. -/
private theorem ofName?_of_typeNameError? {v : Value} (h : typeNameError? v = none) :
    (v.text?.bind SchemaType.ofName?).map (fun t ↦ .string t.name) = some v := by
  unfold typeNameError? at h
  split at h
  · next s =>
    split at h
    · next hs =>
      obtain ⟨t, ht⟩ := Option.isSome_iff_exists.mp hs
      rw [Value.text?, Option.bind_some, ht, Option.map_some, SchemaType.name_of_ofName? ht]
    · cases h
  · cases h

private theorem keptBelow_typeNames {n : Nat} :
    KeptBelow n (.whole .typeNames) buildTypes TypeKeyword.toValue := by
  intro v _ h
  obtain ⟨shape, hs⟩ := Grammar.exists_settle h
  obtain rfl := resolveTypeNames_eq_ok hs
  have hn : normal (.whole .typeNames) v = v := normal_of_settle_any hs
  rw [settle_whole, resolve] at hs
  refine ⟨?_, by rw [hn]⟩
  rw [hn]
  cases v with
  | string s =>
    rw [resolveTypeNames] at hs
    split at hs
    · cases hs
    · next he =>
      have hv := ofName?_of_typeNameError? he
      rw [Value.text?, Option.bind_some] at hv
      rw [buildTypes, Option.map_map]
      exact hv
  | array vs =>
    rw [resolveTypeNames] at hs
    split at hs
    · cases hs
    · next he =>
      have hv (w : Value) (hw : w ∈ vs) :
          (w.text?.bind SchemaType.ofName?).map (fun t ↦ .string t.name) = some (id w) :=
        ofName?_of_typeNameError? (List.findSome?_eq_none_iff.mp he w hw)
      have ht := map_filterMap_eq hv
      rw [List.map_id] at ht
      rw [buildTypes, Option.map_some, TypeKeyword.toValue, Value.ofStrings, List.map_map]
      exact congrArg (some ∘ Value.array) ht
  | _ => cases hs

/-- The keyword for items is kept if the places for schemas in it are. -/
private theorem keptBelow_schemaItems {n : Nat}
    (kept : KeptBelow n (.whole .schemaPosition) (fun v ↦ some (buildPosition v))
      positionToValue) :
    KeptBelow n (.whole .items) buildItems itemsToValue := by
  intro v hn h
  cases v with
  | array vs =>
    have hi := (Grammar.itemError?_eq_none_iff _ _).mp h
    have hk : Kept (.whole .items) _ _ (.array vs) := kept_array rfl fun w hw ↦
      kept w (Nat.lt_trans (Value.sizeOf_lt_array hw) hn) (hi w hw)
    simp only [List.filterMap_eq_map'] at hk
    constructor
    · exact hk.written
    · have ha := hk.again
      rw [normal_of_settle_list rfl] at ha ⊢
      exact congrArg (Option.map Items.positional) ha
  | bool b => exact ⟨rfl, rfl⟩
  | object members =>
    have hk := kept_some_iff.mp (kept (.object members) hn h)
    exact ⟨congrArg some hk.1, congrArg (some ∘ Items.each) hk.2⟩
  | _ => cases h

/-- A schema is kept if the places for schemas in it are. -/
private theorem recordKept_schema (h : documentGrammar.Fits .schema [] members)
    (kept : KeptBelow (sizeOf (Value.object members)) (.whole .schemaPosition)
      (fun v ↦ some (buildPosition v)) positionToValue) :
    RecordKept .schema (fun members ↦ assemble members (buildNested members)) toValue members := by
  have hId := fieldKept_text? h "$id" rfl
  have hRef := fieldKept_text? h "$ref" rfl
  have hTitle := fieldKept_text? h "title" rfl
  have hDescription := fieldKept_text? h "description" rfl
  have hDefault := fieldKept_get? h "default" rfl
  have hExamples := fieldKept_items? h "examples" rfl
  have hType := fieldKept_optional h "type" rfl rfl keptBelow_typeNames
  have hEnum := fieldKept_items? h "enum" rfl
  have hConst := fieldKept_get? h "const" rfl
  have hFormat := fieldKept_text? h "format" rfl
  have hItems := fieldKept_optional h "items" rfl rfl (keptBelow_schemaItems kept)
  have hPrefixItems := fieldKept_list? h "prefixItems" rfl kept
  have hUniqueItems := fieldKept_flag? h "uniqueItems" rfl
  have hRequired := fieldKept_texts? h "required" rfl
  have hProperties := fieldKept_map? h "properties" rfl kept
  have hAdditional := fieldKept_present? h "additionalProperties" rfl kept
  have hAllOf := fieldKept_list? h "allOf" rfl kept
  have hAnyOf := fieldKept_list? h "anyOf" rfl kept
  have hOneOf := fieldKept_list? h "oneOf" rfl kept
  have hDefinitions := fieldKept_map? h "definitions" rfl kept
  have hDefs := fieldKept_map? h "$defs" rfl kept
  constructor
  · simp only [toValue_eq, assemble_buildNested, buildKeywords]
    rw [arrange_eq_foldl, hId.written, hRef.written, hTitle.written, hDescription.written,
      hDefault.written, hExamples.written, hType.written, hEnum.written, hConst.written,
      hFormat.written, hItems.written, hPrefixItems.written, hUniqueItems.written,
      hRequired.written, hProperties.written, hAdditional.written, hAllOf.written, hAnyOf.written,
      hOneOf.written, hDefinitions.written, hDefs.written]
    rfl
  · simp only [assemble_buildNested, buildKeywords]
    rw [hId.again, hRef.again, hTitle.again, hDescription.again,
      hDefault.again, hExamples.again, hType.again, hEnum.again, hConst.again,
      hFormat.again, hItems.again, hPrefixItems.again, hUniqueItems.again,
      hRequired.again, hProperties.again, hAdditional.again, hAllOf.again, hAnyOf.again,
      hOneOf.again, hDefinitions.again, hDefs.again, besides_arrange, besides_normalFields]

/-- What stands in a place for a schema is kept, however deep schemas are nested in it. -/
theorem keptBelow_position (n : Nat) :
    KeptBelow n (.whole .schemaPosition) (fun v ↦ some (buildPosition v)) positionToValue := by
  induction n with
  | zero =>
    intro v hn
    cases hn
  | succ n ih =>
    intro v hn h
    cases v with
    | bool b => exact ⟨rfl, rfl⟩
    | object members =>
      have fits := (Grammar.fieldError?_eq_none_iff _ _ _).mp h
      have below : KeptBelow (sizeOf (Value.object members)) (.whole .schemaPosition)
          (fun v ↦ some (buildPosition v)) positionToValue := fun w hw ↦ ih w (by omega)
      have hk := recordKept_schema fits below
      refine kept_object (fun _ ↦ rfl) rfl ⟨hk.written, ?_⟩
      exact congrArg Position.schema hk.again
    | _ => cases h

theorem keptBelow_build {n : Nat} :
    KeptBelow n (.record .schema) (fun v ↦ some (build v)) toValue := by
  have hr (members : Entries Value) : some (build (.object members)) =
      some (assemble members (buildNested members)) := rfl
  exact keptBelow_record hr fun _ h ↦ recordKept_schema h (keptBelow_position _)

end Schema

end RpcForge

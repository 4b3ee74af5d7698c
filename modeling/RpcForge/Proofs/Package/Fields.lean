import RpcForge.Package.PythonPackage
import RpcForge.Proofs.Client.ParameterNames
import RpcForge.Proofs.Interface.Definitions
import RpcForge.Proofs.Package.ModelCode

/-!
# Fields of models in Python

A class has a field for each property of its schema, and what a field stands for in JSON is just the
name of the property. The names of the fields are made from those names, and nothing keeps them
apart.
-/

namespace RpcForge

/-- The names of the properties, in the order of the document. -/
def Schema.propertyNames (schema : Schema) : List String :=
  Entries.keys (schema.properties.getD [])

/-! ## Schemas of objects -/

namespace Meaning

private theorem keys_ofNamed (ps : List (String × SchemaPosition)) :
    Entries.keys (ofNamed ps) = Entries.keys ps := by
  induction ps with
  | nil => rfl
  | cons p ps ih =>
    obtain ⟨name, p⟩ := p
    change name :: Entries.keys (ofNamed ps) = name :: Entries.keys ps
    rw [ih]

private theorem ofType_eq_object {k : Keywords} {parts : Parts} {type : SchemaType}
    {properties : List (String × Meaning)} {required : List String} {additional : Option Meaning}
    (h : ofType k parts type = .object properties required additional) :
    properties = parts.properties ∧ required = (k.required.getD []).eraseDups := by
  unfold ofType at h
  split at h <;> try split at h
  all_goals simp_all

/-- Only what is an object by its type means one. -/
private theorem choose_eq_object {k : Keywords} {parts : Parts}
    {properties : List (String × Meaning)} {required : List String} {additional : Option Meaning}
    (h : choose k parts = .object properties required additional) :
    properties = parts.properties ∧ required = (k.required.getD []).eraseDups := by
  unfold choose at h
  split at h
  · cases h
  · next keyword _ _ =>
    unfold ofTypes at h
    split at h
    · exact ofType_eq_object h
    · cases h
  · cases h
  · cases h
  · cases h

/-- The meaning of a schema is chosen from its keywords, with the properties of the schema. -/
private theorem exists_choose_eq (schema : Schema) : ∃ parts,
    ofSchema schema = choose schema.keywords parts ∧
      parts.properties = ofNamed (schema.properties.getD []) := by
  obtain ⟨keywords, items, prefixItems, properties, additionalProperties, allOf, anyOf, oneOf,
    definitions, defs⟩ := schema
  -- the definition only unfolds where it is known which of its places are there
  rcases items with _ | (_ | _) <;> cases prefixItems <;> cases properties <;>
    cases additionalProperties <;> cases allOf <;> cases anyOf <;> cases oneOf <;>
    exact ⟨_, rfl, rfl⟩

/-- What means an object has the properties of its schema, in order, and requires those that the
schema requires. -/
private theorem ofSchema_eq_object {schema : Schema} {properties : List (String × Meaning)}
    {required : List String} {additional : Option Meaning}
    (h : ofSchema schema = .object properties required additional) :
    Entries.keys properties = schema.propertyNames ∧ required.contains = schema.isRequired := by
  obtain ⟨parts, hc, hp⟩ := exists_choose_eq schema
  obtain ⟨rfl, rfl⟩ := choose_eq_object (hc ▸ h)
  rw [hp, keys_ofNamed]
  exact ⟨rfl, funext fun name ↦ by simp [Schema.isRequired]⟩

end Meaning

/-- A model that is a class means an object. -/
theorem Model.exists_meaning_eq_object {model : Model} (h : model.kind = .record) :
    ∃ properties required additional, model.meaning = .object properties required additional := by
  unfold kind at h
  split at h
  · cases h
  · next properties required additional _ hm => exact ⟨properties, required, additional, hm⟩
  · cases h

namespace PythonModels

open RpcForge.Text (quote)

/-! ## Fields -/

/-- The text of a field says its name, its type and, where the field stands for something else in
JSON, what that is. -/
def Field.Shown (field : Field) : Prop :=
  match field.property with
  | none =>
    ∃ type, fieldText field = field.name ++ ": " ++ type ∨
      fieldText field = field.name ++ ": " ++ type ++ " = None"
  | some wire =>
    ∃ type, fieldText field = field.name ++ ": " ++ type ++ " = Field(alias=" ++ quote wire ++ ")" ∨
      fieldText field = field.name ++ ": " ++ type ++ " = Field(None, alias=" ++ quote wire ++ ")"

theorem Field.shown (field : Field) : field.Shown := by
  obtain ⟨name, property, type, required⟩ := field
  cases property with
  | none =>
    cases required with
    | true => exact ⟨type, .inl rfl⟩
    | false => exact ⟨PythonClient.optionalType type, .inr rfl⟩
  | some wire =>
    cases required with
    | true => exact ⟨type, .inl rfl⟩
    | false => exact ⟨PythonClient.optionalType type, .inr rfl⟩

private theorem wireName_fieldOf (required : List String) (entry : String × Meaning) :
    (fieldOf required entry).wireName = entry.1 := by
  simp only [fieldOf, Field.wireName]
  split
  · next h => simpa using h
  · rfl

private theorem required_fieldOf (required : List String) (entry : String × Meaning) :
    (fieldOf required entry).required = required.contains entry.1 := by
  rw [fieldOf]

/-- The fields of a class stand for the properties in JSON, those first that have to be there. -/
private theorem wireNames_ordered (required : List String) (properties : List (String × Meaning)) :
    (ordered (properties.map (fieldOf required))).map Field.wireName =
      (Entries.keys properties).filter required.contains ++
        (Entries.keys properties).filter (!required.contains ·) := by
  have hw : Field.wireName ∘ fieldOf required = Prod.fst := by
    funext entry
    rw [Function.comp_apply, wireName_fieldOf]
  have hf (p : String → Bool) (q : Field → Bool)
      (h : ∀ entry, q (fieldOf required entry) = p entry.1) :
      ((properties.map (fieldOf required)).filter q).map Field.wireName =
        (Entries.keys properties).filter p := by
    rw [List.filter_map, List.map_map, hw, Entries.keys, List.filter_map]
    congr 1
    exact List.filter_congr fun entry _ ↦ h entry
  rw [ordered, List.map_append, hf required.contains _ (required_fieldOf required),
    hf (!required.contains ·) _ fun entry ↦ by rw [required_fieldOf]]

private theorem names_ordered_perm (required : List String) (properties : List (String × Meaning)) :
    ((ordered (properties.map (fieldOf required))).map Field.name).Perm
      ((Entries.keys properties).map Naming.pythonIdentifier) := by
  have hp : (ordered (properties.map (fieldOf required))).Perm
      (properties.map (fieldOf required)) := List.filter_append_perm _ _
  refine (hp.map Field.name).trans (.of_eq ?_)
  simp [fieldOf, Entries.keys, Function.comp_def]

/-! ## Classes -/

/-- The fields of a class are those for the properties of its schema, in order. -/
private theorem exists_fields_eq {schema : Schema} {name : String}
    (record : (Model.ofSchema name schema).kind = .record) : ∃ properties required,
      (recordOf (Model.ofSchema name schema)).fields =
        ordered (properties.map (fieldOf required)) ∧
      Entries.keys properties = schema.propertyNames ∧ required.contains = schema.isRequired := by
  obtain ⟨properties, required, additional, hm⟩ := Model.exists_meaning_eq_object record
  refine ⟨properties, required, ?_, Meaning.ofSchema_eq_object hm⟩
  rw [recordOf, hm, fieldsOf]

/-- The fields of a class stand for the properties of its schema in JSON, those first that have to
be there; otherwise the order is kept. -/
private theorem wireNames_recordOf {schema : Schema} {name : String}
    (record : (Model.ofSchema name schema).kind = .record) :
    (recordOf (Model.ofSchema name schema)).fields.map Field.wireName =
      schema.propertyNames.filter schema.isRequired ++
        schema.propertyNames.filter (!schema.isRequired ·) := by
  obtain ⟨properties, required, hf, hk, hr⟩ := exists_fields_eq record
  rw [hf, wireNames_ordered, hk, hr]

/-- The fields of a class have different names exactly if the properties of its schema stay apart in
snake case. -/
private theorem nodup_names_recordOf_iff {schema : Schema} {name : String}
    (record : (Model.ofSchema name schema).kind = .record) :
    ((recordOf (Model.ofSchema name schema)).fields.map Field.name).Nodup ↔
      Naming.StaysApart Naming.pythonAvoided (schema.propertyNames.map Naming.snake) := by
  obtain ⟨properties, required, hf, hk, -⟩ := exists_fields_eq record
  rw [hf, ← Naming.nodup_map_pythonIdentifier_iff, ← hk]
  exact (names_ordered_perm required properties).nodup_iff

/-- Where all properties have ASCII names, the fields have different names exactly if these names
differ in snake case. -/
theorem nodup_names_recordOf_iff_of_ascii {schema : Schema} {name : String}
    (record : (Model.ofSchema name schema).kind = .record)
    (ascii : ∀ property ∈ schema.propertyNames, Naming.IsAscii property) :
    ((recordOf (Model.ofSchema name schema)).fields.map Field.name).Nodup ↔
      (schema.propertyNames.map Naming.snake).Nodup := by
  rw [nodup_names_recordOf_iff record, Naming.staysApart_snake_iff_of_ascii ascii]

/-- A model that is a class is that of the first schema under its name. The block of the class ends
with a line for each field, and what the fields stand for in JSON are the properties of the schema,
those first that have to be there. The fields have different names exactly if the properties stay
apart in snake case. -/
theorem fields_nodup_iff {document : Document} {model : Model}
    (model_mem : model ∈ (Models.ofComponents document.components).toList)
    (record : model.kind = .record) :
    ∃ schema, Entries.get? document.definitions model.name = some schema ∧
      (∀ plan : Plan, plan.interface.models = Models.ofComponents document.components →
        (recordOf model).block ∈ Code.blocks (moduleCode (moduleOf plan))) ∧
      (∀ field ∈ (recordOf model).fields, field.Shown) ∧
      (recordOf model).fields.map Field.wireName =
        schema.propertyNames.filter schema.isRequired ++
          schema.propertyNames.filter (!schema.isRequired ·) ∧
      (((recordOf model).fields.map Field.name).Nodup ↔
        Naming.StaysApart Naming.pythonAvoided (schema.propertyNames.map Naming.snake)) := by
  obtain ⟨schema, hs, he⟩ := (document.mem_models_iff model).mp model_mem
  rw [he] at record
  refine ⟨schema, hs, fun plan hp ↦ ?_, fun field _ ↦ field.shown, ?_, ?_⟩
  · rw [blocks_moduleCode]
    refine List.mem_append_right _ (List.mem_map_of_mem (List.mem_map_of_mem ?_))
    rw [hp]
    exact List.mem_filter.mpr ⟨model_mem, by rw [he, record]; rfl⟩
  · rw [he]
    exact wireNames_recordOf record
  · rw [he]
    exact nodup_names_recordOf_iff record

/-- A document with a class that has given properties, of which `name` has to be there. -/
def person (properties : List String) : Document where
  openrpc := "1.3.2"
  info := { title := "People", version := "1" }
  methods := []
  components := some { schemas := some [("Person", {
    keywords := { types := some (.single .object), required := some ["name"] }
    properties := some (properties.map fun property ↦ (property, .flag true)) })] }

/-- Properties in camel case and reserved words have fields of their own. -/
theorem fields_nodup_person :
    ∃ model ∈ (Models.ofComponents (person ["userId", "class", "name"]).components).toList,
      (recordOf model).fields.map Field.wireName = ["name", "userId", "class"] ∧
      ((recordOf model).fields.map Field.name).Nodup := by
  have hm : Model.ofSchema "Person" _ ∈
      (Models.ofComponents (person ["userId", "class", "name"]).components).toList := .head _
  obtain ⟨schema, hs, -, -, hw, hn⟩ := fields_nodup_iff hm rfl
  obtain rfl := Option.some.inj hs
  exact ⟨_, hm, hw, hn.mpr (by decide +kernel)⟩

/-- Properties with different names can have one field, and the models are written nevertheless. -/
theorem exists_fields_not_nodup :
    ∃ plan, Plan.ofDocument (person ["userId", "user_id"]) = .ok plan ∧
      PythonPackage.modelFiles plan ≠ [] ∧
      ∃ model ∈ plan.interface.models.toList, model.kind = .record ∧
        (recordOf model).fields.map Field.wireName = ["userId", "user_id"] ∧
        (recordOf model).fields.map Field.name = ["user_id", "user_id"] ∧
        ¬ ((recordOf model).fields.map Field.name).Nodup := by
  have hf : ((Plan.ofDocument (person ["userId", "user_id"])).toOption.map fun plan ↦
      ((PythonPackage.modelFiles plan).isEmpty, plan.interface.models.toList.map fun model ↦
        (model.kind, (recordOf model).fields.map Field.wireName,
          (recordOf model).fields.map Field.name))) =
      some (false, [(.record, ["userId", "user_id"], ["user_id", "user_id"])]) := by
    decide +kernel
  obtain ⟨plan, hp, he⟩ := exists_ok_of_map_toOption hf
  obtain ⟨hw, hm⟩ := Prod.mk.inj he
  obtain ⟨model, hm, hk⟩ := List.mem_map.mp (hm ▸ List.mem_singleton_self _)
  simp only [Prod.mk.injEq] at hk
  obtain ⟨hk, hj, hn⟩ := hk
  refine ⟨plan, hp, List.isEmpty_eq_false_iff.mp hw, model, hm, hk, hj, hn, ?_⟩
  rw [hn]
  decide

end PythonModels

end RpcForge

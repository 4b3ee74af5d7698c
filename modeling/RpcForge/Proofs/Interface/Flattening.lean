import RpcForge.Proofs.Interface.Definitions

/-!
# Components in one row

However deep schemas are defined inside of others, their models stand in one row. Every name that
is given somewhere has one model, at the place and with the contents of the first schema that a
reader meets under it; the schemas under taken names are no models, but what they define may be.
-/

namespace RpcForge

/-- What is defined in a schema are its definitions that are schemas, each before what is defined in
it. -/
theorem Schema.inner_eq (schema : Schema) :
    schema.inner = schema.nestedDefinitions.flatMap fun (name, position) ↦
      match position with
      | .flag _ => []
      | .schema s => (name, s) :: s.inner := by
  have hf (ps : List (String × SchemaPosition)) :
      innerOfAll ps = ps.flatMap fun (name, position) ↦
        match position with
        | .flag _ => []
        | .schema s => (name, s) :: s.inner := by
    induction ps with
    | nil => rfl
    | cons p ps ih =>
      obtain ⟨name, position⟩ := p
      rw [innerOfAll, List.flatMap_cons, ih]
      cases position <;> rfl
  obtain ⟨_, _, _, _, _, _, _, _, definitions, defs⟩ := schema
  rw [nestedDefinitions, List.flatMap_append, ← hf, ← hf]
  cases definitions <;> cases defs <;> rfl

/-- A model has the name and the contents of a schema. Values that are allowed count if there are
some. -/
structure Model.Describes (model : Model) (name : String) (schema : Schema) : Prop where
  /-- The name is the given one. -/
  name_eq : model.name = name
  /-- The title is that of the schema. -/
  title_eq : model.title = schema.keywords.title
  /-- The description is that of the schema. -/
  description_eq : model.description = schema.keywords.description
  /-- The values that are allowed are those of the schema, if it lists any. -/
  options_iff : ∀ values, model.options = some values ↔
    schema.keywords.enum = some values ∧ values ≠ []
  /-- The meaning is that of the schema. -/
  meaning_eq : model.meaning = Meaning.ofSchema schema

/-- Only the model that is made from a schema describes it. -/
private theorem Model.describes_iff {model : Model} {name : String} {schema : Schema} :
    model.Describes name schema ↔ model = ofSchema name schema := by
  have ho (values : List Json.Value) :
      (ofSchema name schema).options = some values ↔
        schema.keywords.enum = some values ∧ values ≠ [] := by
    simp [ofSchema, Option.filter_eq_some_iff]
  constructor
  · rintro ⟨rfl, ht, hd, he, hm⟩
    have hopt : model.options = (ofSchema model.name schema).options :=
      Option.ext fun values ↦ (he values).trans (ho values).symm
    cases model
    simp_all [ofSchema]
  · rintro rfl
    exact ⟨rfl, rfl, rfl, ho, rfl⟩

namespace Models

/-- A model is found exactly under its name. -/
theorem get?_eq_some_iff {models : Models} {name : String} {model : Model} :
    models.get? name = some model ↔ model ∈ models.toList ∧ model.name = name := by
  constructor
  · intro h
    exact ⟨List.mem_of_find?_eq_some h, by simpa using List.find?_some h⟩
  · rintro ⟨hm, rfl⟩
    exact get?_of_mem hm

/-- The value of a key is that of its first entry. -/
theorem get?_entries_eq_some_iff {α : Type} {entries : Entries α} {key : String} {value : α} :
    Entries.get? entries key = some value ↔ ∃ before after,
      entries = before ++ (key, value) :: after ∧ key ∉ Entries.keys before := by
  rw [Entries.get?, List.lookup_eq_some_iff]
  refine exists₂_congr fun before after ↦ and_congr_right fun _ ↦ ⟨fun h hk ↦ ?_, fun h p hp ↦ ?_⟩
  · obtain ⟨_, hm⟩ := Entries.exists_mem_of_mem_keys hk
    simpa using h _ hm
  · rw [bne_iff_ne]
    rintro rfl
    exact h (List.mem_map_of_mem hp)

/-- The models of components are the flattening of their schemas. Where each schema is listed before
what its definitions are, those under the older keyword first, there is a model for every name that
is listed, at the place and with the contents of the first schema under it. Truth values are not
listed, and what is defined in a schema is listed whether or not the name of the schema is taken. -/
theorem ofComponents_flattens (components : Option Components) :
    let schemas := (components.map Components.definitions).getD []
    (∀ schema : Schema, schema.inner = schema.nestedDefinitions.flatMap fun (name, position) ↦
      match position with
      | .flag _ => []
      | .schema s => (name, s) :: s.inner) ∧
    (ofComponents components).names = (Entries.keys schemas).eraseDups ∧
    ∀ name model, (ofComponents components).get? name = some model ↔
      ∃ before schema after, schemas = before ++ (name, schema) :: after ∧
        name ∉ Entries.keys before ∧ model.Describes name schema := by
  intro schemas
  refine ⟨Schema.inner_eq, by rw [ofComponents_eq, names_addAll], fun name model ↦ ?_⟩
  rw [get?_eq_some_iff, ofComponents_eq, mem_addAll_iff]
  simp only [Model.describes_iff]
  constructor
  · rintro ⟨⟨schema, hs, hm⟩, rfl⟩
    obtain ⟨before, after, he, hn⟩ := get?_entries_eq_some_iff.mp hs
    exact ⟨before, schema, after, he, hn, hm⟩
  · rintro ⟨before, schema, after, he, hn, rfl⟩
    exact ⟨⟨schema, get?_entries_eq_some_iff.mpr ⟨before, after, he, hn⟩, rfl⟩, rfl⟩

/-- The inner `Outer` is no model, but what it defines is one. -/
example : (ofComponents (some { schemas := some [
    ("Outer", (Schema.ofType .object).withDefinition "Outer"
      ((Schema.ofType .string).withDefinition "Inner" (Schema.ofType .null))),
    ("Tag", Schema.ofType .string)] })).toList.map (fun model ↦ (model.name, model.kind)) =
      [("Outer", .record), ("Inner", .synonym), ("Tag", .synonym)] := by decide +kernel

end Models

end RpcForge

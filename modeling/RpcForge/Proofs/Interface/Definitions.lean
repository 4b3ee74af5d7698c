import RpcForge.Document.Basic
import RpcForge.Interface.Model
import RpcForge.Proofs.Entries

/-!
# Schemas behind models

The schemas of a document that have names are those of its components and those that are defined in
other schemas, however deep. Listed in the order in which a reader meets them, the first schema
under each name is the one that becomes a model.
-/

namespace RpcForge

namespace Schema

mutual

/-- The schemas that are defined in a schema, however deep, under their names: each before those
that are defined in it. Truth values are no schemas. -/
def inner : Schema → Entries Schema
  | ⟨_, _, _, _, _, _, _, _, definitions, defs⟩ =>
    (match definitions with
      | some ps => innerOfAll ps
      | none => []) ++
    match defs with
      | some ps => innerOfAll ps
      | none => []
termination_by structural s => s

/-- The schema in a place under a name, and those that are defined in it. -/
def innerOf (name : String) : SchemaPosition → Entries Schema
  | .flag _ => []
  | .schema s => (name, s) :: inner s
termination_by structural p => p

/-- The schemas in places under names, each with those that are defined in it. -/
def innerOfAll : List (String × SchemaPosition) → Entries Schema
  | [] => []
  | (name, p) :: ps => innerOf name p ++ innerOfAll ps
termination_by structural ps => ps

end

end Schema

/-- The schemas of components under their names, each before those that are defined in it. -/
def Components.definitions (components : Components) : Entries Schema :=
  components.namedSchemas.flatMap fun (name, schema) ↦ (name, schema) :: schema.inner

/-- The schemas of a document under their names, each before those that are defined in it. -/
def Document.definitions (document : Document) : Entries Schema :=
  (document.components.map Components.definitions).getD []

namespace Models

/-- Add the models of schemas under their names, in order. -/
def addAll (models : Models) (entries : Entries Schema) : Models :=
  entries.foldl (fun models (name, schema) ↦ models.add (Model.ofSchema name schema)) models

variable {models : Models}

@[simp] theorem addAll_nil : models.addAll [] = models := rfl

private theorem addAll_cons (entry : String × Schema) (entries : Entries Schema) :
    models.addAll (entry :: entries) =
      (models.add (Model.ofSchema entry.1 entry.2)).addAll entries := rfl

private theorem addAll_append (entries rest : Entries Schema) :
    models.addAll (entries ++ rest) = (models.addAll entries).addAll rest :=
  List.foldl_append

/-! ## Models of the listed schemas -/

mutual

private theorem addSchema_eq :
    ∀ (s : Schema) (models : Models) (name : String),
      models.addSchema name s = models.addAll ((name, s) :: s.inner)
  | ⟨keywords, items, prefixItems, properties, additionalProperties, allOf, anyOf, oneOf,
      definitions, defs⟩, models, name => by
    cases definitions with
    | none =>
      cases defs with
      | none => rfl
      | some qs => exact addDefinitions_eq qs _
    | some ps =>
      cases defs with
      | none =>
        change (models.add _).addDefinitions ps =
          (models.add _).addAll (Schema.innerOfAll ps ++ [])
        rw [addDefinitions_eq ps, List.append_nil]
      | some qs =>
        change ((models.add _).addDefinitions ps).addDefinitions qs =
          (models.add _).addAll (Schema.innerOfAll ps ++ Schema.innerOfAll qs)
        rw [addDefinitions_eq ps, addDefinitions_eq qs, addAll_append]
termination_by structural s => s

private theorem addPosition_eq :
    ∀ (p : SchemaPosition) (models : Models) (name : String),
      models.addPosition name p = models.addAll (Schema.innerOf name p)
  | .flag _, _, _ => rfl
  | .schema s, models, name => addSchema_eq s models name
termination_by structural p => p

private theorem addDefinitions_eq :
    ∀ (ps : List (String × SchemaPosition)) (models : Models),
      models.addDefinitions ps = models.addAll (Schema.innerOfAll ps)
  | [], _ => rfl
  | (name, p) :: ps, models => by
    change (models.addPosition name p).addDefinitions ps =
      models.addAll (Schema.innerOf name p ++ Schema.innerOfAll ps)
    rw [addPosition_eq p, addDefinitions_eq ps, addAll_append]
termination_by structural ps => ps

end

/-- The models of components are those of their schemas, added in order. -/
theorem ofComponents_eq (components : Option Components) :
    ofComponents components =
      empty.addAll ((components.map Components.definitions).getD []) := by
  have hf (entries : Entries Schema) (models : Models) :
      entries.foldl (fun models (name, schema) ↦ models.addSchema name schema) models =
        models.addAll (entries.flatMap fun (name, schema) ↦ (name, schema) :: schema.inner) := by
    induction entries generalizing models with
    | nil => rfl
    | cons entry entries ih =>
      obtain ⟨name, schema⟩ := entry
      rw [List.foldl_cons, List.flatMap_cons, addAll_append, ih]
      exact congrArg (addAll · _) (addSchema_eq schema models name)
  rw [ofComponents]
  cases components with
  | none => rfl
  | some components => exact hf components.namedSchemas empty

/-! ## The first schema under a name -/

/-- A model is found under its name. -/
theorem get?_of_mem {model : Model} (h : model ∈ models.toList) :
    models.get? model.name = some model := by
  obtain ⟨before, after, he⟩ := List.append_of_mem h
  have hd := models.distinct
  rw [he, List.map_append, List.map_cons, List.nodup_middle, List.nodup_cons] at hd
  have hb : ∀ other ∈ before, (other.name == model.name) = false := by
    intro other ho
    have hn : other.name ≠ model.name := fun e ↦
      hd.1 (List.mem_append_left _ (e ▸ List.mem_map_of_mem ho))
    simpa using hn
  rw [get?, he, List.find?_append, List.find?_eq_none.mpr (by simpa using hb)]
  simp

private theorem toList_add (model : Model) : (models.add model).toList =
    if model.name ∈ models.names then models.toList else models.toList ++ [model] := by
  rw [add]
  by_cases h : model.name ∈ models.names
  · simp [contains, h]
  · simp [contains, h]

private theorem names_add (model : Model) : (models.add model).names =
    if model.name ∈ models.names then models.names else models.names ++ [model.name] := by
  rw [names, toList_add]
  split
  · rfl
  · rw [List.map_append, List.map_singleton, names]

/-- Models are named as schemas are listed, where only the first schema under a name counts. -/
theorem names_addAll (entries : Entries Schema) :
    (empty.addAll entries).names = (Entries.keys entries).eraseDups := by
  induction entries using List.reverseRecOn with
  | nil => rfl
  | append_singleton entries entry ih =>
    have hk : Entries.keys (entries ++ [entry]) = Entries.keys entries ++ [entry.1] :=
      Entries.keys_append _ _
    rw [addAll_append, addAll_cons, addAll_nil, names_add, ih, hk, eraseDups_concat]
    simp only [List.mem_eraseDups]
    rfl

/-- A schema under a new name adds its model, and one under a name that was there adds none. -/
private theorem mem_addAll_concat_iff (entries : Entries Schema) (name : String) (schema : Schema)
    (model : Model) :
    model ∈ (empty.addAll (entries ++ [(name, schema)])).toList ↔
      model ∈ (empty.addAll entries).toList ∨
        name ∉ Entries.keys entries ∧ model = Model.ofSchema name schema := by
  have hn : (Model.ofSchema name schema).name = name := rfl
  simp only [addAll_append, addAll_cons, addAll_nil, toList_add, names_addAll, List.mem_eraseDups,
    hn]
  split
  · next h => simp [h]
  · next h => simp [h]

/-- The models are those of the first schemas under their names. -/
theorem mem_addAll_iff (entries : Entries Schema) (model : Model) :
    model ∈ (empty.addAll entries).toList ↔
      ∃ schema, Entries.get? entries model.name = some schema ∧
        model = Model.ofSchema model.name schema := by
  induction entries using List.reverseRecOn with
  | nil => simp [empty, Entries.get?]
  | append_singleton entries entry ih =>
    obtain ⟨name, schema⟩ := entry
    have hs : Entries.get? [(name, schema)] model.name =
        if model.name = name then some schema else none := by
      by_cases h : model.name = name
      · simp [Entries.get?, h]
      · simp [Entries.get?, List.lookup_cons, beq_eq_false_iff_ne.mpr h, h]
    rw [mem_addAll_concat_iff, ih, Entries.get?_append, hs]
    cases hg : Entries.get? entries model.name with
    | some found =>
      have hm : model.name ∈ Entries.keys entries :=
        (Entries.get?_isSome_iff _ _).mp (by rw [hg]; rfl)
      have hne : ¬ (name ∉ Entries.keys entries ∧ model = Model.ofSchema name schema) := by
        rintro ⟨hn, rfl⟩
        exact hn hm
      simp [hne]
    | none =>
      have hm : model.name ∉ Entries.keys entries := (Entries.get?_eq_none_iff _ _).mp hg
      by_cases h : model.name = name
      · subst h
        simp [hm]
      · have hne : model ≠ Model.ofSchema name schema := fun he ↦ h (by rw [he]; rfl)
        simp [h, hne]

end Models

namespace Document

/-- The names of the models, each at the place of the first schema under it. -/
theorem names_models (document : Document) :
    (Models.ofComponents document.components).names =
      (Entries.keys document.definitions).eraseDups := by
  rw [Models.ofComponents_eq, Models.names_addAll, definitions]

/-- There are no models exactly if there are no schemas with names. -/
theorem isEmpty_models_iff (document : Document) :
    (Models.ofComponents document.components).isEmpty = true ↔ document.definitions = [] := by
  have hn := congrArg List.isEmpty document.names_models
  rw [Models.names, List.isEmpty_map] at hn
  rw [Models.isEmpty, hn, List.isEmpty_iff]
  simp [List.eq_nil_iff_forall_not_mem, Entries.keys]

/-- There are schemas with names exactly if the components list one. -/
theorem definitions_ne_nil_iff (document : Document) : document.definitions ≠ [] ↔
    ∃ components ∈ document.components, ∃ schemas ∈ components.schemas, schemas ≠ [] := by
  cases hc : document.components with
  | none => simp [definitions, hc]
  | some components =>
    have hd : document.definitions = [] ↔ components.namedSchemas = [] := by
      cases hs : components.namedSchemas <;> simp [definitions, hc, Components.definitions, hs]
    cases hs : components.schemas <;> simp [hd, Components.namedSchemas, hs]

/-- The models are those of the first schemas under their names. -/
theorem mem_models_iff (document : Document) (model : Model) :
    model ∈ (Models.ofComponents document.components).toList ↔
      ∃ schema, Entries.get? document.definitions model.name = some schema ∧
        model = Model.ofSchema model.name schema := by
  rw [Models.ofComponents_eq, Models.mem_addAll_iff, definitions]

end Document

end RpcForge

import RpcForge.Proofs.Document.Wellformed
import RpcForge.Proofs.Interface.Acceptance

/-!
# Names of models

A model has the key of a component or of a definition as its name. Both are checked wherever schemas
are defined, so that in a document that is accepted every model has a name that can be written.
-/

namespace RpcForge

open TypeGrammar (IsName)

namespace Models

/-- Every model has a name that can be written. -/
def Named (models : Models) : Prop :=
  ∀ name ∈ models.names, IsName name.toList

private theorem named_empty : Named empty :=
  List.forall_mem_nil _

theorem Named.add {models : Models} (h : models.Named) {model : Model}
    (hm : IsName model.name.toList) : (models.add model).Named := by
  rw [Models.add]
  split
  · exact h
  · intro name hn
    rw [names, List.map_append, List.mem_append] at hn
    rcases hn with hn | hn
    · exact h name hn
    · rw [List.map_singleton, List.mem_singleton] at hn
      rwa [hn]

mutual

private theorem named_addSchema :
    ∀ (s : Schema) {models : Models} {name : String}, models.Named → IsName name.toList →
      s.check = .ok () → (models.addSchema name s).Named
  | ⟨keywords, items, prefixItems, properties, additionalProperties, allOf, anyOf, oneOf,
      definitions, defs⟩, models, name, h, hn, hc => by
    rw [Schema.check] at hc
    simp only [Check.first_cons_eq_ok_iff] at hc
    obtain ⟨-, -, -, -, -, -, -, -, hd, hd', -⟩ := hc
    have hm : (models.add (Model.ofSchema name ⟨keywords, items, prefixItems, properties,
      additionalProperties, allOf, anyOf, oneOf, definitions, defs⟩)).Named := h.add hn
    cases definitions with
    | none =>
      cases defs with
      | none => exact hm
      | some qs => exact named_addDefinitions qs hm hd'
    | some ps =>
      have hm := named_addDefinitions ps hm hd
      cases defs with
      | none => exact hm
      | some qs => exact named_addDefinitions qs hm hd'
termination_by structural s => s

private theorem named_addPosition :
    ∀ (p : SchemaPosition) {models : Models} {name : String}, models.Named → IsName name.toList →
      Schema.checkPosition p = .ok () → (models.addPosition name p).Named
  | .flag _, _, _, h, _, _ => h
  | .schema s, _, _, h, hn, hc => named_addSchema s h hn hc
termination_by structural p => p

private theorem named_addDefinitions :
    ∀ (ps : List (String × SchemaPosition)) {models : Models}, models.Named →
      Schema.checkDefinitions ps = .ok () → (models.addDefinitions ps).Named
  | [], _, h, _ => h
  | (name, p) :: ps, models, h, hc => by
    rw [Schema.checkDefinitions] at hc
    simp only [Check.first_cons_eq_ok_iff, Check.under_eq_ok_iff,
      Wellformed.checkComponentKey_eq_ok_iff] at hc
    obtain ⟨hn, hp, hps, -⟩ := hc
    exact named_addDefinitions ps (named_addPosition p h hn hp) hps
termination_by structural ps => ps

end

private theorem named_foldl (entries : Entries Schema) {models : Models} (h : models.Named)
    (hc : ∀ entry ∈ entries, Components.checkEntry "schemas" Schema.check entry = .ok ()) :
    (entries.foldl (fun models (name, schema) ↦ models.addSchema name schema) models).Named := by
  induction entries generalizing models with
  | nil => exact h
  | cons entry rest ih =>
    obtain ⟨he, hr⟩ := List.forall_mem_cons.mp hc
    rw [Components.checkEntry] at he
    simp only [Check.first_cons_eq_ok_iff, Check.under_eq_ok_iff,
      Wellformed.checkComponentKey_eq_ok_iff] at he
    exact ih (named_addSchema entry.2 h he.1 he.2.1) hr

private theorem named_ofComponents {components : Components} (h : components.check = .ok ()) :
    (ofComponents (some components)).Named := by
  rw [Components.check] at h
  simp only [Check.first_cons_eq_ok_iff, Check.all_eq_ok_iff] at h
  exact named_foldl components.namedSchemas named_empty h.2.1

end Models

/-- In a document that is accepted every model has a name that can be written. -/
theorem Interface.named_of_ofDocument {document : Document} {interface : Interface}
    (h : ofDocument document = .ok interface) : interface.models.Named := by
  obtain ⟨hc, -, he, -⟩ := (ofDocument_eq_ok_iff document interface).mp h
  have hm : interface.models = .ofComponents document.components := by rw [he, withOperations]
  rw [hm]
  cases hg : document.components with
  | none => exact Models.named_empty
  | some components =>
    rw [Document.check] at hc
    simp only [Check.first_cons_eq_ok_iff] at hc
    obtain ⟨-, -, -, -, -, hc, -⟩ := hc
    rw [hg] at hc
    exact Models.named_ofComponents ((Check.under_eq_ok_iff _ _).mp hc)

end RpcForge

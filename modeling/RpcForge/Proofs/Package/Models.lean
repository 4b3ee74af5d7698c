import RpcForge.Package.PythonModels
import RpcForge.Package.TypeScriptModels
import RpcForge.Proofs.Client.Mentions
import RpcForge.Proofs.Interface.Acceptance
import RpcForge.Proofs.Interface.AliasOrder

/-!
# The models of a package

Which names the file with the models defines, and what a package writes types for. No such type has
the name of a model in it that is not defined.
-/

namespace RpcForge

/-! ## Names that are defined -/

namespace Models

/-- The models of the three kinds are all models. -/
private theorem ofKind_perm (models : Models) :
    (models.ofKind .enumeration ++ (models.ofKind .record ++ models.ofKind .synonym)).Perm
      models.toList := by
  have hf (p q r : ModelKind → Bool) (h : ∀ kind, (p kind && q kind) = r kind) :
      (models.toList.filter fun model ↦ q model.kind).filter (fun model ↦ p model.kind) =
        models.toList.filter fun model ↦ r model.kind := by
    rw [List.filter_filter]
    simp only [h]
  have hr := hf (· == .record) (!· == .enumeration) (· == .record) fun kind ↦ by
    cases kind <;> rfl
  have hs := hf (!· == .record) (!· == .enumeration) (· == .synonym) fun kind ↦ by
    cases kind <;> rfl
  rw [ofKind, ofKind, ofKind, ← hr, ← hs]
  exact ((List.filter_append_perm _ _).append_left _).trans (List.filter_append_perm _ _)

end Models

namespace TypeScriptModels

/-- A model is declared under its name, whatever it is written as. -/
@[simp] theorem name_declarationOf (model : Model) : (declarationOf model).name = model.name := by
  unfold declarationOf
  split
  · rfl
  · unfold enumOf
    split
    · rfl
    · rfl
  · rfl

end TypeScriptModels

namespace Plan

/-- The names that the file with the models defines. -/
def definedNames (plan : Plan) : Language → List String
  | .python =>
    (PythonModels.moduleOf plan).enums.map PythonModels.EnumClass.name ++
      ((PythonModels.moduleOf plan).records.map PythonModels.RecordClass.name ++
        (PythonModels.moduleOf plan).aliases.map PythonModels.AliasDef.name)
  | .typeScript =>
    (TypeScriptModels.sourceOf plan).declarations.map TypeScriptModels.Declaration.name

/-- The models in the order in which the file with them defines them. -/
def definitionOrder (plan : Plan) : Language → List Model
  | .python =>
    plan.interface.models.ofKind .enumeration ++ (plan.interface.models.ofKind .record ++
      Models.aliasOrder (plan.interface.models.ofKind .synonym))
  | .typeScript => plan.interface.models.toList

theorem definitionOrder_perm (plan : Plan) (l : Language) :
    (plan.definitionOrder l).Perm plan.interface.models.toList := by
  cases l with
  | python =>
    refine .trans ?_ (Models.ofKind_perm plan.interface.models)
    exact ((Models.aliasOrder_perm _).append_left _).append_left _
  | typeScript => exact .refl _

theorem definedNames_eq (plan : Plan) (l : Language) :
    plan.definedNames l = (plan.definitionOrder l).map Model.name := by
  cases l with
  | python =>
    simp [definedNames, definitionOrder, PythonModels.moduleOf, PythonModels.enumOf,
      PythonModels.recordOf, PythonModels.aliasOf, Function.comp_def]
  | typeScript =>
    simp [definedNames, definitionOrder, TypeScriptModels.sourceOf, Function.comp_def]

/-- In both languages exactly the models are defined, each of them once. -/
theorem definedNames_perm (plan : Plan) (l : Language) :
    (plan.definedNames l).Perm plan.interface.models.names := by
  rw [definedNames_eq]
  exact (plan.definitionOrder_perm l).map Model.name

end Plan

/-! ## Types that are written -/

namespace Interface

/-- What clients write types for. -/
inductive Typed (interface : Interface) : Meaning → Prop
  /-- A parameter of an operation. -/
  | param {operation : Operation} {param : Parameter}
      (operation_mem : operation ∈ interface.operations) (param_mem : param ∈ operation.params) :
      Typed interface param.meaning
  /-- The result of an operation. -/
  | result {operation : Operation} (operation_mem : operation ∈ interface.operations) :
      Typed interface operation.result.meaning
  /-- A property of a model that is a class. -/
  | property {model : Model} {properties : List (String × Meaning)} {required : List String}
      {additional : Option Meaning} {name : String} {meaning : Meaning}
      (model_mem : model ∈ interface.models.toList)
      (meaning_eq : model.meaning = .object properties required additional)
      (property_mem : (name, meaning) ∈ properties) : Typed interface meaning
  /-- A model, which may be another name for a type. -/
  | model {model : Model} (model_mem : model ∈ interface.models.toList) :
      Typed interface model.meaning

/-- What a property refers to, the properties do. -/
private theorem references_subset_namedReferences {name : String} {meaning : Meaning}
    {properties : List (String × Meaning)} (h : (name, meaning) ∈ properties) :
    meaning.references ⊆ Meaning.namedReferences properties := by
  induction properties with
  | nil => simp at h
  | cons property properties ih =>
    rw [Meaning.namedReferences]
    rcases List.mem_cons.mp h with rfl | h
    · exact List.subset_append_left _ _
    · exact List.subset_append_of_subset_right _ (ih h)

/-- In an interface that was checked, types are written for nothing that refers to models which are
not there. -/
theorem Typed.covered {interface : Interface} {meaning : Meaning} (h : interface.Typed meaning)
    (checked : interface.checkReferences = .ok ()) : Covered interface.models meaning := by
  have hc := (checkReferences_eq_ok_iff interface).mp checked
  have operation_covered : ∀ operation ∈ interface.operations,
      ∀ param ∈ operation.params ++ [operation.result], Covered interface.models param.meaning :=
    fun operation ho param hp ↦ hc (operation.name ++ "." ++ param.name, param.meaning) <|
      List.mem_append_left _ <| List.mem_flatMap.mpr ⟨operation, ho, List.mem_map_of_mem hp⟩
  have model_covered : ∀ model ∈ interface.models.toList, Covered interface.models model.meaning :=
    fun model hm ↦ hc ("schema " ++ model.name, model.meaning) <|
      List.mem_append_right _ (List.mem_map_of_mem hm)
  cases h with
  | param ho hp => exact operation_covered _ ho _ (List.mem_append_left _ hp)
  | result ho => exact operation_covered _ ho _ (List.mem_append_right _ (.head _))
  | property hm he hp =>
    intro other hr
    refine model_covered _ hm other ?_
    rw [he, Meaning.references]
    exact List.mem_append_left _ (references_subset_namedReferences hp hr)
  | model hm => exact model_covered _ hm

/-- The models whose names stand in a type that is written are there. -/
theorem Typed.contains_of_mem_pieces {document : Document} {interface : Interface}
    {meaning : Meaning} (h : interface.Typed meaning)
    (accepted : ofDocument document = .ok interface) {l : Language} {name : String}
    (hm : .model name ∈ TypeExpr.pieces l (TypeExpr.ofMeaning l meaning)) :
    interface.models.contains name = true :=
  h.covered ((ofDocument_eq_ok_iff _ _).mp accepted).2.2.2 name
    (TypeExpr.mem_references_of_mentions meaning (TypeExpr.mem_mentions_of_pieces hm))

/-- A type that is written consists of words and signs of the language and of names of models, and
these models are there and are defined in the file with the models. -/
theorem ofDocument_mentions_defined {document : Document} {interface : Interface}
    (accepted : ofDocument document = .ok interface) {meaning : Meaning}
    (typed : interface.Typed meaning) (l : Language) :
    Piece.textOf (TypeExpr.pieces l (TypeExpr.ofMeaning l meaning)) = TypeExpr.typeOf l meaning ∧
      ∀ name, .model name ∈ TypeExpr.pieces l (TypeExpr.ofMeaning l meaning) →
        interface.models.contains name = true ∧
        ∀ plan : Plan, plan.interface = interface → name ∈ plan.definedNames l := by
  refine ⟨TypeExpr.textOf_pieces l _, fun name h ↦ ?_⟩
  have hn := typed.contains_of_mem_pieces accepted h
  refine ⟨hn, ?_⟩
  rintro plan rfl
  rw [(plan.definedNames_perm l).mem_iff]
  simpa [Models.contains] using hn

/-- A list of a model is spelled with its name, which is defined. -/
theorem ofDocument_mentions_defined_drawing :
    ∃ interface, ofDocument (drawing "Point") = .ok interface ∧
      interface.Typed (.list (some (.ref "Point")) false) ∧
      TypeExpr.typeOf .python (.list (some (.ref "Point")) false) = "list[Point]" ∧
      interface.models.contains "Point" = true := by
  obtain ⟨interface, accepted, meanings_eq⟩ : ∃ interface,
      ofDocument (drawing "Point") = .ok interface ∧
        (interface.operations.flatMap Operation.params).map Parameter.meaning =
          [.list (some (.ref "Point")) false] := ⟨_, rfl, rfl⟩
  obtain ⟨param, hp, hm⟩ := List.mem_map.mp (meanings_eq ▸ List.mem_singleton_self _)
  obtain ⟨operation, ho, hp⟩ := List.mem_flatMap.mp hp
  have typed : interface.Typed (.list (some (.ref "Point")) false) := hm ▸ .param ho hp
  have h := ofDocument_mentions_defined accepted typed .python
  exact ⟨interface, accepted, typed, h.1.symm.trans (by decide), (h.2 "Point" (by decide)).1⟩

end Interface

end RpcForge

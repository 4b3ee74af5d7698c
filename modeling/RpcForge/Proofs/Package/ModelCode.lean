import RpcForge.Proofs.Code.Blocks
import RpcForge.Proofs.Package.Models
import RpcForge.Proofs.Text.Parts

/-!
# The code of models

What is written for models: one definition for each of them, which is a block or a line. In Python
a class has a line for each field at its end.
-/

namespace RpcForge

namespace PythonModels

/-- The block of an enumeration. -/
def EnumClass.block (c : EnumClass) : String × List Code :=
  let gap : List Code := if c.members.isEmpty then [] else [.blank]
  ("class " ++ c.name ++ "(Enum)",
    Comment.docstring c.doc ++ gap ++
      c.members.map fun member ↦ .line (member.name ++ " = " ++ member.literal))

/-- What stands in a class before its fields. -/
def RecordClass.preamble (c : RecordClass) : List Code :=
  Comment.docstring c.doc ++
    (if c.fields.any (·.property.isSome) then
      [.blank, .line "model_config = ConfigDict(populate_by_name=True)"] else []) ++
    if c.fields.isEmpty then [] else [.blank]

/-- The block of a class, which ends with a line for each field. -/
def RecordClass.block (c : RecordClass) : String × List Code :=
  ("class " ++ c.name ++ "(BaseModel)",
    c.preamble ++ c.fields.map fun field ↦ .line (fieldText field))

/-- The blocks of the module are its enumerations and classes. -/
theorem blocks_moduleCode (m : Module) :
    Code.blocks (moduleCode m) =
      m.enums.map EnumClass.block ++ m.records.map RecordClass.block := by
  have he (c : EnumClass) : Code.blocks (enumCode c) = [c.block] := by
    simp [enumCode, EnumClass.block]
  have hr (c : RecordClass) : Code.blocks (recordCode c) = [c.block] := by
    simp [recordCode, RecordClass.block, RecordClass.preamble]
  have ha (aliases : List AliasDef) : Code.blocks (aliasesCode aliases) = [] := by
    unfold aliasesCode
    split <;> simp
  have hb (records : List RecordClass) : Code.blocks (rebuildCode records) = [] := by
    unfold rebuildCode
    split <;> simp
  simp [moduleCode, importCode, PythonClient.tupleCode, he, hr, ha, hb, List.map_eq_flatMap]

end PythonModels

namespace Package

open RpcForge.Text

/-- A piece of code defines a name for a model. -/
inductive Defines : Language → String → Code → Prop
  /-- An enumeration in Python. -/
  | pythonEnum (name : String) (body : List Code) :
      Defines .python name (.suite ("class " ++ name ++ "(Enum)") body)
  /-- A class in Python. -/
  | pythonClass (name : String) (body : List Code) :
      Defines .python name (.suite ("class " ++ name ++ "(BaseModel)") body)
  /-- Another name for a type in Python. -/
  | pythonAlias (name type : String) : Defines .python name (.line (name ++ " = " ++ type))
  /-- A class in TypeScript. -/
  | typeScriptClass (name : String) (body : List Code) :
      Defines .typeScript name (.braced ("export class " ++ name) body)
  /-- An enumeration in TypeScript. -/
  | typeScriptEnum (name : String) (body : List Code) :
      Defines .typeScript name (.braced ("export enum " ++ name) body)
  /-- Another name for a type in TypeScript. -/
  | typeScriptAlias (name type : String) :
      Defines .typeScript name (.line ("export type " ++ name ++ " = " ++ type ++ ";"))

/-- Between the definitions in Python are empty lines, and in TypeScript there are comments as
well. -/
def isDefinition : Language → Code → Bool
  | .python, .blank => false
  | .python, _ => true
  | .typeScript, .braced _ _ => true
  | .typeScript, .line text => startsWith text "export type "
  | .typeScript, _ => false

/-- The file with the models as code. -/
def modelCode : Language → Plan → List Code
  | .python, plan => PythonModels.moduleCode (PythonModels.moduleOf plan)
  | .typeScript, plan => TypeScriptModels.sourceCode (TypeScriptModels.sourceOf plan)

/-- What stands before the definitions in the file with the models. -/
def modelHead : Language → Plan → List Code
  | .python, plan =>
    Comment.docstring (Comment.heading plan.interface.info.title "models") ++
      PythonModels.importCode ++ PythonClient.tupleCode "__all__" plan.interface.models.names
  | .typeScript, plan => Comment.block (Comment.heading plan.interface.info.title "models")

/-- What stands behind the definitions in the file with the models. -/
def modelTail : Language → Plan → List Code
  | .python, plan => PythonModels.rebuildCode (PythonModels.moduleOf plan).records
  | .typeScript, _ => []

/-- A piece of code defines a model as its kind asks for. -/
inductive DefinesModel : Language → Model → Code → Prop
  /-- An enumeration in Python. -/
  | pythonEnum {model : Model} (h : model.kind = .enumeration) (body : List Code) :
      DefinesModel .python model (.suite ("class " ++ model.name ++ "(Enum)") body)
  /-- A class in Python. -/
  | pythonClass {model : Model} (h : model.kind = .record) (body : List Code) :
      DefinesModel .python model (.suite ("class " ++ model.name ++ "(BaseModel)") body)
  /-- Another name for a type in Python. -/
  | pythonAlias {model : Model} (h : model.kind = .synonym) :
      DefinesModel .python model
        (.line (model.name ++ " = " ++ TypeExpr.typeOf .python model.meaning))
  /-- A class in TypeScript. -/
  | typeScriptClass {model : Model} (h : model.kind = .record) (body : List Code) :
      DefinesModel .typeScript model (.braced ("export class " ++ model.name) body)
  /-- An enumeration in TypeScript, of strings and numbers only. -/
  | typeScriptEnum {model : Model} (h : model.kind = .enumeration)
      (hv : ∀ v ∈ model.options.getD [], TypeScriptModels.isMemberValue v = true)
      (body : List Code) :
      DefinesModel .typeScript model (.braced ("export enum " ++ model.name) body)
  /-- Another name for a type in TypeScript, also for an enumeration of other values. -/
  | typeScriptAlias {model : Model} (h : model.kind ≠ .record)
      (hv : model.kind = .enumeration →
        ∃ v ∈ model.options.getD [], TypeScriptModels.isMemberValue v = false) :
      DefinesModel .typeScript model (.line
        ("export type " ++ model.name ++ " = " ++ TypeExpr.typeOf .typeScript model.meaning ++ ";"))

/-- What is written for each model, apart from what is no definition, defines the model. -/
private theorem definesModel_flatMap {l : Language} {f : Model → List Code} {models : List Model}
    (h : ∀ model ∈ models, ∃ code,
      (f model).filter (isDefinition l) = [code] ∧ DefinesModel l model code) :
    List.Forall₂ (DefinesModel l) models ((models.flatMap f).filter (isDefinition l)) := by
  rw [List.filter_flatMap]
  exact Code.forall₂_flatMap_singleton_of_mem h

/-- What defines a model defines its name. -/
private theorem DefinesModel.defines {l : Language} {model : Model} {code : Code}
    (h : DefinesModel l model code) : Defines l model.name code := by
  cases h with
  | pythonEnum _ body => exact .pythonEnum _ body
  | pythonClass _ body => exact .pythonClass _ body
  | pythonAlias _ => exact .pythonAlias _ _
  | typeScriptClass _ body => exact .typeScriptClass _ body
  | typeScriptEnum _ _ body => exact .typeScriptEnum _ body
  | typeScriptAlias _ _ => exact .typeScriptAlias _ _

end Package

namespace PythonModels

open Package

variable {models : List Model}

private theorem definesModel_enums (h : ∀ model ∈ models, model.kind = .enumeration) :
    List.Forall₂ (DefinesModel .python) models
      (((models.map enumOf).flatMap enumCode).filter (isDefinition .python)) := by
  rw [List.flatMap_map]
  exact definesModel_flatMap fun model hm ↦ ⟨_, rfl, .pythonEnum (h model hm) _⟩

private theorem definesModel_records (h : ∀ model ∈ models, model.kind = .record) :
    List.Forall₂ (DefinesModel .python) models
      (((models.map recordOf).flatMap recordCode).filter (isDefinition .python)) := by
  rw [List.flatMap_map]
  exact definesModel_flatMap fun model hm ↦ ⟨_, rfl, .pythonClass (h model hm) _⟩

private theorem definesModel_aliases (h : ∀ model ∈ models, model.kind = .synonym) :
    List.Forall₂ (DefinesModel .python) models
      ((aliasesCode (models.map aliasOf)).filter (isDefinition .python)) := by
  have hf : List.Forall₂ (DefinesModel .python) models ((models.flatMap fun model ↦
      [.blank, .line (model.name ++ " = " ++ TypeExpr.typeOf .python model.meaning)]).filter
        (isDefinition .python)) :=
    definesModel_flatMap fun model hm ↦ ⟨_, rfl, .pythonAlias (h model hm)⟩
  rw [aliasesCode, List.filter_append, List.flatMap_map]
  split
  · exact hf
  · exact hf

/-- Behind the definitions there is one call for each class. -/
theorem filter_rebuildCode (records : List RecordClass) :
    (rebuildCode records).filter (isDefinition .python) =
      records.map fun c ↦ .line (c.name ++ ".model_rebuild()") := by
  have hl : ∀ records : List RecordClass, (records.map fun c ↦
      Code.line (c.name ++ ".model_rebuild()")).filter (isDefinition .python) =
        records.map fun c ↦ .line (c.name ++ ".model_rebuild()") := by
    intro records
    rw [List.filter_eq_self, List.forall_mem_map]
    exact fun _ _ ↦ rfl
  cases records with
  | nil => rfl
  | cons c records => exact hl (c :: records)

end PythonModels

namespace TypeScriptModels

open Package RpcForge.Text

/-- The blocks of the source are those of its declarations. -/
private theorem blocks_sourceCode (s : Source) : Code.blocks (sourceCode s) =
    s.declarations.flatMap fun d ↦ Code.blocks (declarationCode s.models d) := by
  simp [sourceCode]

/-- What is written for a model stands in the file with the models. -/
theorem mem_blocks_of_mem_models {plan : Plan} {model : Model}
    (hm : model ∈ plan.interface.models.toList) {block : String × List Code}
    (hb : block ∈ Code.blocks (declarationCode plan.interface.models (declarationOf model))) :
    block ∈ Code.blocks (modelCode .typeScript plan) := by
  rw [modelCode, blocks_sourceCode]
  exact List.mem_flatMap.mpr ⟨_, List.mem_map_of_mem hm, hb⟩

private theorem filter_block (text : String) :
    (Comment.block text).filter (isDefinition .typeScript) = [] := by
  have hn (rest : String) : startsWith ("/** " ++ rest) "export type " = false :=
    startsWith_append_eq_false (by decide) (by decide) rest
  have hl : startsWith "/**" "export type " = false ∧ startsWith " */" "export type " = false := by
    decide
  unfold Comment.block
  dsimp only
  split
  · rfl
  · split
    · simp [isDefinition, hl]
    · simp [isDefinition, hn, String.append_assoc]

/-- A definition stands alone behind an empty line and a comment. -/
private theorem filter_comment (text : String) {code : Code}
    (h : isDefinition .typeScript code = true) :
    (Code.blank :: (Comment.block text ++ [code])).filter (isDefinition .typeScript) = [code] := by
  rw [List.filter_cons_of_neg (by simp [isDefinition]), List.filter_append, filter_block,
    List.nil_append, List.filter_singleton, h]
  rfl

private theorem definesModel_declarationCode (models : Models) (model : Model) : ∃ code,
    (Code.blank :: declarationCode models (declarationOf model)).filter
        (isDefinition .typeScript) = [code] ∧ DefinesModel .typeScript model code := by
  have ha (h : model.kind ≠ .record) (hv : model.kind = .enumeration →
      ∃ v ∈ model.options.getD [], isMemberValue v = false) : ∃ code,
        (Code.blank :: declarationCode models (.synonym (aliasOf model))).filter
          (isDefinition .typeScript) = [code] ∧ DefinesModel .typeScript model code := by
    refine ⟨_, filter_comment _ ?_, .typeScriptAlias h hv⟩
    simp only [isDefinition, String.append_assoc, startsWith_append]
  unfold declarationOf
  cases hk : model.kind with
  | record => exact ⟨_, filter_comment _ rfl, .typeScriptClass hk _⟩
  | synonym => exact ha (by simp [hk]) (by simp [hk])
  | enumeration =>
    rw [enumOf]
    by_cases hv : (model.options.getD []).all isMemberValue = true
    · rw [if_pos hv]
      exact ⟨_, filter_comment _ rfl, .typeScriptEnum hk (List.all_eq_true.mp hv) _⟩
    · rw [if_neg hv]
      exact ha (by simp [hk]) fun _ ↦ by simpa using hv

end TypeScriptModels

namespace Package

/-- The file with the models has just the definitions of the models, each as its kind asks for,
between its head and its end. -/
theorem definesModel_modelCode (l : Language) (plan : Plan) :
    ∃ body, modelCode l plan = modelHead l plan ++ body ++ modelTail l plan ∧
      List.Forall₂ (DefinesModel l) (plan.definitionOrder l) (body.filter (isDefinition l)) := by
  cases l with
  | python =>
    have hk (kind : ModelKind) : ∀ model ∈ plan.interface.models.ofKind kind,
        model.kind = kind := by
      simp [Models.ofKind]
    refine ⟨(PythonModels.moduleOf plan).enums.flatMap PythonModels.enumCode ++
      ((PythonModels.moduleOf plan).records.flatMap PythonModels.recordCode ++
        PythonModels.aliasesCode (PythonModels.moduleOf plan).aliases), ?_, ?_⟩
    · simp [modelCode, modelHead, modelTail, PythonModels.moduleCode, PythonModels.moduleOf]
    · rw [List.filter_append, List.filter_append]
      refine List.rel_append (PythonModels.definesModel_enums (hk _)) (List.rel_append
        (PythonModels.definesModel_records (hk _)) (PythonModels.definesModel_aliases ?_))
      exact fun model hm ↦ hk .synonym model ((Models.aliasOrder_perm _).subset hm)
  | typeScript =>
    refine ⟨_, (List.append_nil _).symm, ?_⟩
    rw [TypeScriptModels.sourceOf, List.flatMap_map]
    exact definesModel_flatMap fun model _ ↦ TypeScriptModels.definesModel_declarationCode _ model

/-- The file with the models has just the definitions of the names that it defines, in order,
between its head and its end. -/
theorem defines_modelCode (l : Language) (plan : Plan) :
    ∃ body, modelCode l plan = modelHead l plan ++ body ++ modelTail l plan ∧
      List.Forall₂ (Defines l) (plan.definedNames l) (body.filter (isDefinition l)) := by
  obtain ⟨body, he, hd⟩ := definesModel_modelCode l plan
  refine ⟨body, he, ?_⟩
  rw [plan.definedNames_eq, List.forall₂_map_left_iff]
  exact hd.imp fun _ _ ↦ DefinesModel.defines

end Package

end RpcForge

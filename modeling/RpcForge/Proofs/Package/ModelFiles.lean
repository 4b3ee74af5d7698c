import RpcForge.Package.Basic
import RpcForge.Proofs.Package.ClientCode
import RpcForge.Proofs.Package.ModelCode

/-!
# The files with the models

A package has a file with the models exactly if its other sources take something from that file. The
file defines each model once, in the way that its kind asks for, and defines nothing else.
-/

namespace RpcForge

open RpcForge.Text

/-! ## What sources take from others -/

namespace PythonClient

/-- The module behind its documentation. -/
def statements (m : Module) : List Code :=
  importCode m ++ tupleCode "__all__" m.exported ++ serversCode m ++ serializeCode ++
    m.groupClasses.flatMap groupClassCode ++ m.clients.flatMap (clientClassCode m)

private theorem moduleCode_eq (m : Module) :
    moduleCode m = Comment.docstring (Comment.heading m.title "client") ++ statements m := by
  simp only [moduleCode, statements, List.append_assoc]

/-- The line that takes all models. -/
def modelImport : Code :=
  .line "from .models import *"

private theorem modelImport_mem_statements_iff (m : Module) :
    modelImport ∈ statements m ↔ m.hasModels = true := by
  have ht (name rest : String) :
      "from jsonrpc2pyclient." ++ name ++ "client import " ++ rest ≠ "from .models import *" := by
    have hf : startsWith "from .models import *" "from jsonrpc2pyclient." = false := by decide
    refine ne_of_startsWith ?_ hf
    simp only [String.append_assoc, startsWith_append]
  unfold statements importCode tupleCode serversCode serializeCode groupClassCode clientClassCode
    modelImport
  cases m.hasModels with
  | false => simp [ht]
  | true => simp

end PythonClient

namespace TypeScriptClient

/-- The source behind its documentation. -/
def statements (s : Source) : List Code :=
  importCode s ++ serversCode s ++ s.interfaces.flatMap interfaceCode ++
    s.groupClasses.flatMap groupClassCode ++ s.clients.flatMap (clientClassCode s) ++ serializeCode

private theorem sourceCode_eq (s : Source) :
    sourceCode s = Comment.block (Comment.heading s.title "client") ++ statements s := by
  simp only [sourceCode, statements, List.append_assoc]

private theorem importCode_subset_statements (s : Source) : importCode s ⊆ statements s := by
  unfold statements
  simp only [List.append_assoc]
  exact List.subset_append_left _ _

/-- The line that takes models by their names. -/
def modelImport (names : List String) : Code :=
  importLine names "./models.js"

/-- Whether a piece of code is a line that takes something from another source. -/
def isImport : Code → Bool
  | .line t => startsWith t "import "
  | _ => false

private theorem isImport_importLine (names : List String) (source : String) :
    isImport (importLine names source) = true := by
  have hs : "import \x7b " = "import " ++ "\x7b " := by decide
  simp only [isImport, importLine, hs, String.append_assoc, startsWith_append]

/-- Nothing is taken from other sources but by the lines at the beginning. -/
private theorem filter_statements (s : Source) : (statements s).filter isImport = importCode s := by
  have hi : (importCode s).filter isImport = importCode s := by
    unfold importCode
    cases s.models <;> simp [isImport_importLine]
  have hc (rest : String) : isImport (.line ("/** " ++ rest)) = false :=
    startsWith_append_eq_false (by decide) (by decide) rest
  have hg (rest : String) : isImport (.line ("/** Methods under `" ++ rest)) = false :=
    startsWith_append_eq_false (by decide) (by decide) rest
  have hr : isImport (.line "type RpcCall = (method: string, params: any) => Promise<any>;") =
      false := by decide
  have hb : isImport .blank = false := rfl
  have hn (header : String) (body : List Code) : isImport (.braced header body) = false := rfl
  simp only [statements, serversCode, interfaceCode, groupClassCode, clientClassCode,
    serializeCode, List.filter_append, List.filter_flatMap, hi, List.filter_cons, hb, hn, hr,
    String.append_assoc]
  simp [hc, hg]

/-- Names are taken from the source with the models exactly if there is one. -/
private theorem exists_modelImport_mem_statements_iff (s : Source) :
    (∃ names, modelImport names ∈ statements s) ↔ s.models.isSome = true := by
  have hm (names : List String) : modelImport names ∈ statements s ↔
      modelImport names ∈ importCode s := by
    rw [← filter_statements, List.mem_filter]
    exact (and_iff_left (isImport_importLine _ _)).symm
  have hd (names bases : List String) :
      modelImport names ≠ importLine bases "jsonrpc2-tsclient" := by
    have hs : quote "./models.js" ++ ";" = "\"./" ++ "models.js\";" := by decide
    have ht : quote "jsonrpc2-tsclient" ++ ";" = "\"jsonrpc2" ++ "-tsclient\";" := by decide
    have ha (front source : String) :
        front ++ quote source ++ ";" = front ++ (quote source ++ ";") := String.append_assoc
    intro he
    have hl := Code.line.inj he
    rw [ha, ha, hs, ht, ← String.append_assoc, ← String.append_assoc] at hl
    exact append_ne_append (by decide) (by decide) _ _ hl
  simp only [hm]
  unfold importCode
  cases s.models with
  | none => simp [hd]
  | some names =>
    refine iff_of_true ⟨names, ?_⟩ rfl
    exact .tail _ (.head _)

end TypeScriptClient

/-! ## Packages -/

namespace PythonPackage

open Package

/-- What a Python package makes of models. -/
structure WritesModels (plan : Plan) : Prop where
  /-- There is a module with the models if there are any. -/
  file : modelFiles plan =
    if plan.hasModels then
      [{ path := ["src", plan.packageName, "models.py"]
         contents := Code.render PythonClient.indentation (modelCode .python plan) }]
    else []
  /-- Behind its documentation, its imports and the names of all models in order, each model has one
  definition, nothing else is defined, and behind the definitions each class has one call. -/
  definitions : ∃ order body calls, order.Perm plan.interface.models.toList ∧
    modelCode .python plan =
      Comment.docstring (Comment.heading plan.interface.info.title "models") ++
        PythonModels.importCode ++
        [Code.line "__all__ = (",
          .nested (plan.interface.models.names.map fun name ↦ .line (quote name ++ ",")),
          .line ")"] ++ body ++ calls ∧
    List.Forall₂ (DefinesModel .python) order (body.filter (isDefinition .python)) ∧
    calls.filter (isDefinition .python) = (plan.interface.models.ofKind .record).map fun model ↦
      Code.line (model.name ++ ".model_rebuild()")
  /-- The clients take the models from it exactly if there is one. -/
  client : clientCode .python plan =
      Comment.docstring (Comment.heading plan.interface.info.title "client") ++
        PythonClient.statements (PythonClient.moduleOf plan) ∧
    (PythonClient.modelImport ∈ PythonClient.statements (PythonClient.moduleOf plan) ↔
      modelFiles plan ≠ [])
  /-- The package offers the models exactly if there is one. -/
  package : ∃ imports, initCode plan =
      Comment.docstring (plan.interface.info.title ++ " client.") ++ imports ∧
    (PythonClient.modelImport ∈ imports ↔ modelFiles plan ≠ [])

private theorem modelFiles_ne_nil_iff (plan : Plan) :
    modelFiles plan ≠ [] ↔ plan.hasModels = true := by
  unfold modelFiles
  cases plan.hasModels <;> simp

private theorem writesModels (plan : Plan) : WritesModels plan where
  file := rfl
  definitions := by
    obtain ⟨body, he, hd⟩ := definesModel_modelCode .python plan
    refine ⟨_, body, modelTail .python plan, plan.definitionOrder_perm .python, he, hd, ?_⟩
    rw [modelTail, PythonModels.filter_rebuildCode, PythonModels.moduleOf, List.map_map]
    rfl
  client := by
    refine ⟨PythonClient.moduleCode_eq _, ?_⟩
    rw [PythonClient.modelImport_mem_statements_iff, modelFiles_ne_nil_iff]
    rfl
  package := by
    refine ⟨_, by rw [initCode, List.append_assoc], ?_⟩
    rw [modelFiles_ne_nil_iff]
    cases plan.hasModels <;> simp [PythonClient.modelImport]

end PythonPackage

namespace TypeScriptPackage

open Package

/-- What a TypeScript package makes of models. -/
structure WritesModels (plan : Plan) : Prop where
  /-- There is a source with the models if there are any. -/
  file : modelFiles plan =
    if plan.hasModels then
      [{ path := ["src", "models.ts"]
         contents := Code.render TypeScriptClient.indentation (modelCode .typeScript plan) }]
    else []
  /-- Behind its documentation the models are defined in order, and nothing else is. -/
  definitions : ∃ body,
    modelCode .typeScript plan =
      Comment.block (Comment.heading plan.interface.info.title "models") ++ body ∧
    List.Forall₂ (DefinesModel .typeScript) plan.interface.models.toList
      (body.filter (isDefinition .typeScript))
  /-- The clients take the models from it exactly if there is one, and then all of them. -/
  client : clientCode .typeScript plan =
      Comment.block (Comment.heading plan.interface.info.title "client") ++
        TypeScriptClient.statements (TypeScriptClient.sourceOf plan) ∧
    ((∃ names, TypeScriptClient.modelImport names ∈
        TypeScriptClient.statements (TypeScriptClient.sourceOf plan)) ↔ modelFiles plan ≠ []) ∧
    (modelFiles plan ≠ [] → TypeScriptClient.modelImport plan.interface.models.names ∈
        TypeScriptClient.statements (TypeScriptClient.sourceOf plan))
  /-- The package offers the models exactly if there is one. -/
  package : "export * from \"./models.js\";" ∈ lines (indexText plan) ↔ modelFiles plan ≠ []

private theorem modelFiles_ne_nil_iff (plan : Plan) :
    modelFiles plan ≠ [] ↔ plan.hasModels = true := by
  unfold modelFiles
  cases plan.hasModels <;> simp

private theorem lines_indexText (plan : Plan) :
    lines (indexText plan) = "export * from \"./client.js\";" ::
      if plan.hasModels then ["export * from \"./models.js\";"] else [] := by
  unfold indexText
  cases plan.hasModels with
  | false => rfl
  | true => rfl

private theorem writesModels (plan : Plan) : WritesModels plan where
  file := rfl
  definitions := by
    obtain ⟨body, he, hd⟩ := definesModel_modelCode .typeScript plan
    exact ⟨body, he.trans (List.append_nil _), hd⟩
  client := by
    refine ⟨TypeScriptClient.sourceCode_eq _, ?_, ?_⟩
    · rw [TypeScriptClient.exists_modelImport_mem_statements_iff, modelFiles_ne_nil_iff,
        TypeScriptClient.sourceOf]
      cases plan.hasModels <;> simp
    · intro hf
      rw [modelFiles_ne_nil_iff] at hf
      refine TypeScriptClient.importCode_subset_statements _ ?_
      rw [TypeScriptClient.importCode, TypeScriptClient.sourceOf, if_pos hf]
      exact .tail _ (.head _)
  package := by
    rw [modelFiles_ne_nil_iff, lines_indexText]
    cases plan.hasModels with
    | false => decide
    | true => decide

end TypeScriptPackage

/-- The models have different names. In both languages the file with the models defines each of them
once, as its kind asks for, and defines nothing else, and other sources of the package take
something from that file exactly if it is there. -/
theorem Package.models_written (plan : Plan) :
    plan.interface.models.names.Nodup ∧ PythonPackage.WritesModels plan ∧
      TypeScriptPackage.WritesModels plan :=
  ⟨plan.interface.models.distinct, PythonPackage.writesModels plan,
    TypeScriptPackage.writesModels plan⟩

end RpcForge

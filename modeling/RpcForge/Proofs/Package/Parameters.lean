import RpcForge.Package.PythonPackage
import RpcForge.Package.TypeScriptPackage
import RpcForge.Proofs.Client.ParameterNames
import RpcForge.Proofs.Client.Plan
import RpcForge.Proofs.Package.ModuleNames
import RpcForge.Proofs.Text.Parts

/-!
# Parameters of generated functions

A generated function has a parameter for each one of its operation. Reserved words are always
avoided; whether the parameters differ from each other, and from what the function uses or declares
itself, depends on what the casing of the target language makes of their names.
-/

namespace RpcForge

open RpcForge.Text

namespace Operation

/-- The names of the parameters, in the order of the document. -/
def paramNames (operation : Operation) : List String :=
  operation.params.map Parameter.name

/-- A function has the parameters of its operation, though maybe in another order. -/
private theorem names_orderedParams_perm (l : Language) (identifier : String → String)
    (operation : Operation) :
    ((operation.orderedParams.map (Argument.ofParameter l identifier)).map Argument.name).Perm
      (operation.paramNames.map identifier) := by
  have hp : operation.orderedParams.Perm operation.params := List.filter_append_perm _ _
  simpa [paramNames, Argument.ofParameter, Function.comp_def] using
    hp.map fun param ↦ identifier param.name

end Operation

/-! ## Python -/

namespace PythonClient

/-- The names of the parameters besides the object itself. -/
def Def.argNames (d : Def) : List String :=
  d.args.map Argument.name

/-- The names that a function uses besides those of its parameters. -/
def usedNames : List String := ["self", serializeFunction]

/-- A function has legal parameters: they differ, each is an identifier and no reserved word, and
none hides what the function uses. -/
structure Def.Legal (d : Def) : Prop where
  /-- The parameters differ. -/
  distinct : d.argNames.Nodup
  /-- They are identifiers. -/
  identifier : ∀ name ∈ d.argNames, Naming.IsIdentifier name
  /-- They are no reserved words. -/
  unreserved : ∀ name ∈ d.argNames, name ∉ Naming.pythonKeywords
  /-- They hide nothing that the function uses. -/
  unused : ∀ name ∈ d.argNames, name ∉ usedNames

namespace Module

/-- The functions of all classes. -/
def defs (m : Module) : List Def :=
  m.groupClasses.flatMap GroupClass.defs ++ m.clients.flatMap ClientClass.defs

/-- The headers of the constructors and functions of all classes. The constructor of a client stands
on several lines, of which the last one is its header. -/
def headers (m : Module) : List String :=
  (m.groupClasses.flatMap fun c ↦
    ("def __init__(self, call: " ++ c.style.callType ++ ") -> None") ::
      c.defs.map (defHeader c.style)) ++
  m.clients.flatMap fun c ↦ ") -> None" :: c.defs.map (defHeader c.style)

/-- What holds of the functions of a module holds of those for all operations in the tree. -/
private theorem forall_defs_iff {document : Document} {plan : Plan} (made : plan.MadeFor document)
    {P : Def → Prop} : (∀ d ∈ (moduleOf plan).defs, P d) ↔
      ∀ group ∈ plan.root.descendants, ∀ entry ∈ group.operations, P (defOf entry.1 entry.2) := by
  obtain ⟨transport, ht⟩ := List.exists_mem_of_ne_nil _ made.transports_ne_nil
  obtain ⟨form, hf⟩ : ∃ form, form ∈ clientForms transport := by
    cases transport <;> exact ⟨_, List.mem_cons_self⟩
  have hs : .awaited ∈ stylesOf plan := by
    rw [stylesOf_eq made.transports_ne_nil]
    split <;> simp
  rw [made.forall_descendants_iff, and_comm]
  simp only [defs, moduleOf, groupClassOf, clientsOf, clientsFor, defsOf, List.forall_mem_append,
    List.forall_mem_flatMap, List.forall_mem_map]
  refine and_congr ?_ ?_
  · exact ⟨fun h ↦ h _ hs, fun h _ _ ↦ h⟩
  · exact ⟨fun h ↦ h _ ht _ hf, fun h _ _ _ _ ↦ h⟩

private theorem headers_defs (style : CallStyle) (call : String) (defs : List Def) :
    (Code.blocks (defs.flatMap (defCode style call))).map Prod.fst =
      defs.map (defHeader style) := by
  induction defs with
  | nil => simp
  | cons d defs ih => simpa [defCode] using ih

private theorem headers_groupClassCode (c : GroupClass) :
    (Code.innerBlocks (groupClassCode c)).map Prod.fst =
      ("def __init__(self, call: " ++ c.style.callType ++ ") -> None") ::
        c.defs.map (defHeader c.style) := by
  have hd := headers_defs c.style "self._call" c.defs
  simpa [Code.innerBlocks, groupClassCode] using hd

private theorem headers_clientClassCode (m : Module) (c : ClientClass) :
    (Code.innerBlocks (clientClassCode m c)).map Prod.fst =
      ") -> None" :: c.defs.map (defHeader c.style) := by
  have hd := headers_defs c.style "self.call" c.defs
  simpa [Code.innerBlocks, clientClassCode] using hd

/-- The functions in classes have these headers, in order. -/
private theorem headers_moduleCode (m : Module) :
    (Code.innerBlocks (moduleCode m)).map Prod.fst = m.headers := by
  have hn : Code.innerBlocks (Comment.docstring (Comment.heading m.title "client") ++
      importCode m ++ tupleCode "__all__" m.exported ++ serversCode m ++ serializeCode) = [] := by
    simp [Code.innerBlocks, serversCode, serializeCode]
  rw [moduleCode, Code.innerBlocks_append, Code.innerBlocks_append, hn]
  simp [headers, List.map_flatMap, headers_groupClassCode, headers_clientClassCode]

end Module

/-! ### Legal parameters -/

private theorem pythonIdentifier_eq_serializeFunction_iff (text : String) :
    Naming.pythonIdentifier text = serializeFunction ↔ Naming.snake text = serializeFunction := by
  rw [Naming.pythonIdentifier_eq]
  exact Naming.avoid_eq_iff (by decide) (by decide +kernel) _

private theorem forall_argNames_iff {P : String → Prop} (key : String) (operation : Operation) :
    (∀ name ∈ (defOf key operation).argNames, P name) ↔
      ∀ name ∈ operation.paramNames, P (Naming.pythonIdentifier name) := by
  have hp := operation.names_orderedParams_perm .python Naming.pythonIdentifier
  rw [← List.forall_mem_map (l := operation.paramNames) (P := P)]
  simp only [← hp.mem_iff]
  rfl

/-- A parameter is an identifier, and it is neither a reserved word nor the object itself. -/
private theorem allowed_argNames (key : String) (operation : Operation) :
    ∀ name ∈ (defOf key operation).argNames,
      Naming.IsIdentifier name ∧ name ∉ Naming.pythonKeywords ∧ name ≠ "self" := by
  rw [forall_argNames_iff]
  intro name _
  have hn := Naming.pythonIdentifier_not_mem name
  rw [Naming.pythonAvoided, List.mem_append, not_or, Naming.pythonBoundNames,
    List.mem_singleton] at hn
  exact ⟨Naming.isIdentifier_pythonIdentifier name, hn⟩

/-- The parameters of the function for an operation are legal if their names stay apart in snake
case and none of them is that of the function that prepares what is sent. -/
private theorem legal_defOf_iff (key : String) (operation : Operation) :
    (defOf key operation).Legal ↔
      Naming.StaysApart Naming.pythonAvoided (operation.paramNames.map Naming.snake) ∧
        serializeFunction ∉ operation.paramNames.map Naming.snake := by
  have hd : (defOf key operation).argNames.Nodup ↔
      Naming.StaysApart Naming.pythonAvoided (operation.paramNames.map Naming.snake) := by
    rw [← Naming.nodup_map_pythonIdentifier_iff]
    exact (operation.names_orderedParams_perm .python Naming.pythonIdentifier).nodup_iff
  have hs : (∀ name ∈ (defOf key operation).argNames, name ≠ serializeFunction) ↔
      serializeFunction ∉ operation.paramNames.map Naming.snake := by
    rw [forall_argNames_iff]
    simp [pythonIdentifier_eq_serializeFunction_iff]
  have ha := allowed_argNames key operation
  rw [← hd, ← hs]
  constructor
  · intro h
    exact ⟨h.distinct, fun name hn he ↦ h.unused name hn (by simp [he, usedNames])⟩
  · rintro ⟨hd, hs⟩
    refine ⟨hd, fun name hn ↦ (ha name hn).1, fun name hn ↦ (ha name hn).2.1, fun name hn hu ↦ ?_⟩
    rcases List.mem_pair.mp hu with he | he
    · exact (ha name hn).2.2 he
    · exact hs name hn he

variable {document : Document} {plan : Plan}

private theorem forall_legal_iff (made : plan.MadeFor document) :
    (∀ d ∈ (moduleOf plan).defs, d.Legal) ↔ ∀ operation ∈ plan.interface.operations,
      Naming.StaysApart Naming.pythonAvoided (operation.paramNames.map Naming.snake) ∧
        serializeFunction ∉ operation.paramNames.map Naming.snake := by
  rw [Module.forall_defs_iff made, ← made.forall_operations_iff]
  simp only [legal_defOf_iff]

/-- Where all parameters have ASCII names, functions have legal parameters exactly if in every
operation these names differ in snake case. -/
theorem forall_legal_iff_of_ascii (made : plan.MadeFor document)
    (ascii : ∀ operation ∈ plan.interface.operations, ∀ name ∈ operation.paramNames,
      Naming.IsAscii name) :
    (∀ d ∈ (moduleOf plan).defs, d.Legal) ↔ ∀ operation ∈ plan.interface.operations,
      (operation.paramNames.map Naming.snake).Nodup := by
  rw [forall_legal_iff made]
  refine forall₂_congr fun operation ho ↦ ?_
  rw [Naming.staysApart_snake_iff_of_ascii (ascii operation ho), and_iff_left]
  intro hs
  obtain ⟨name, hn, he⟩ := List.mem_map.mp hs
  exact (Naming.tight_snake (ascii operation ho name hn)).head (by rw [he]; rfl)

/-- For a plan that is made for a document, the functions in classes are headed by their parameters,
none of which is a reserved word or called as the object itself. They all are legal exactly if in
every operation the names of the parameters stay apart in snake case and none of them is that of the
function that prepares what is sent. -/
theorem defs_legal_iff (made : plan.MadeFor document) :
    (Code.innerBlocks (moduleCode (moduleOf plan))).map Prod.fst = (moduleOf plan).headers ∧
    (∀ d ∈ (moduleOf plan).defs, ∀ name ∈ d.argNames,
      Naming.IsIdentifier name ∧ name ∉ Naming.pythonKeywords ∧ name ≠ "self") ∧
    ((∀ d ∈ (moduleOf plan).defs, d.Legal) ↔ ∀ operation ∈ plan.interface.operations,
      Naming.StaysApart Naming.pythonAvoided (operation.paramNames.map Naming.snake) ∧
        serializeFunction ∉ operation.paramNames.map Naming.snake) :=
  ⟨Module.headers_moduleCode _,
    (Module.forall_defs_iff made).mpr fun _ _ entry _ ↦ allowed_argNames entry.1 entry.2,
    forall_legal_iff made⟩

end PythonClient

/-- A document with a method that takes values under given names, in a given way, and returns
something. -/
def finding (names : List String) (passing : ParameterStructure) : Document where
  openrpc := "1.3.2"
  info := { title := "Clash", version := "1" }
  methods := [.inline {
    name := "find"
    params := names.map fun name ↦ .inline { name := name, schema := .flag true }
    paramStructure := some passing
    result := some (.inline { name := "found", schema := .flag true }) }]

namespace PythonClient

/-- Reserved words and words in camel case may be parameters. -/
theorem defs_legal_class :
    ∃ plan, Plan.ofDocument (finding ["userId", "class", "self"] .byPosition) = .ok plan ∧
      ∀ d ∈ (moduleOf plan).defs, d.Legal := by
  have hf : ((Plan.ofDocument (finding ["userId", "class", "self"] .byPosition)).toOption.map
      fun plan ↦ plan.interface.operations.map fun o ↦ o.paramNames.map Naming.snake) =
      some [["user_id", "class", "self"]] := by decide +kernel
  obtain ⟨plan, hp, hs⟩ := exists_ok_of_map_toOption hf
  have hn : ∀ operation ∈ plan.interface.operations,
      operation.paramNames.map Naming.snake = ["user_id", "class", "self"] :=
    fun _ ho ↦ List.mem_singleton.mp (hs ▸ List.mem_map_of_mem ho)
  refine ⟨plan, hp, (defs_legal_iff (.fresh hp)).2.2.mpr fun operation ho ↦ ?_⟩
  rw [hn operation ho]
  decide +kernel

/-- Parameters with different names can become one, or hide what the function uses, and the clients
are written nevertheless. -/
theorem exists_def_not_legal :
    ∃ plan files,
      Plan.ofDocument (finding ["userId", "user_id", "é_serialize"] .byPosition) = .ok plan ∧
      PythonPackage.clientFiles plan = .ok files ∧
      ∃ d ∈ (moduleOf plan).defs,
        d.argNames = ["user_id", "user_id", "_serialize"] ∧ ¬ d.Legal := by
  have hf : ((Plan.ofDocument
        (finding ["userId", "user_id", "é_serialize"] .byPosition)).toOption.map fun plan ↦
      ((PythonPackage.clientFiles plan).toOption.map fun _ ↦ (),
        (moduleOf plan).defs.map Def.argNames)) =
      some (some (),
        [["user_id", "user_id", "_serialize"], ["user_id", "user_id", "_serialize"]]) := by
    decide +kernel
  obtain ⟨plan, hp, he⟩ := exists_ok_of_map_toOption hf
  obtain ⟨hc, hn⟩ := Prod.mk.inj he
  obtain ⟨files, hw, -⟩ := exists_ok_of_map_toOption hc
  obtain ⟨d, hd, ha⟩ := List.mem_map.mp (hn ▸ List.mem_cons_self)
  refine ⟨plan, files, hp, hw, d, hd, ha, fun h ↦ ?_⟩
  have hdis := h.distinct
  rw [ha] at hdis
  exact absurd hdis (by decide)

end PythonClient

/-! ## TypeScript -/

namespace TypeScriptClient

open Package

/-- The names of the parameters. -/
def Signature.names : Signature → List String
  | .positional args => args.map Argument.name
  | .destructured names _ _ => names

namespace MethodDef

/-- The names of the parameters. -/
def argNames (m : MethodDef) : List String :=
  m.signature.names

/-- The constants that the body declares. -/
def constants (m : MethodDef) : List String :=
  match m.outcome with
  | .dropped => ["params"]
  | .asIs _ => ["params", "result"]
  | .converted _ _ => ["params", "result"]

/-- A method has legal parameters: they differ from each other and from the constants that the body
declares. -/
structure Legal (m : MethodDef) : Prop where
  /-- The parameters differ. -/
  distinct : m.argNames.Nodup
  /-- None of them is declared once more. -/
  unused : ∀ name ∈ m.argNames, name ∉ m.constants

end MethodDef

/-- The names of the properties. -/
def ParametersInterface.propertyNames (i : ParametersInterface) : List String :=
  i.properties.map fun p ↦ p.argument.name

/-- The methods of all classes. -/
def Source.methods (s : Source) : List MethodDef :=
  s.groupClasses.flatMap GroupClass.methods ++ s.clients.flatMap ClientClass.methods

/-! ### Methods in the code -/

/-- A piece of code declares a constant. -/
def declaresConstant : Code → Bool
  | .line text => startsWith text "const "
  | _ => false

/-- A block is a method for an operation. -/
def isMethod (block : String × List Code) : Bool :=
  startsWith block.1 "async "

/-- A block is an interface of parameters. -/
def isInterface (block : String × List Code) : Bool :=
  startsWith block.1 "export interface "

/-- A line declares a constant under a name. -/
def Declares (name : String) (code : Code) : Prop :=
  ∃ value, code = .line ("const " ++ name ++ " = " ++ value)

/-- A block is a method with its parameters and its constants. -/
structure ShowsMethod (m : MethodDef) (block : String × List Code) : Prop where
  /-- The header has the name and the parameters. -/
  header : block.1 = "async " ++ m.name ++ "(" ++ signatureText m.signature ++ "): Promise<" ++
    m.outcome.type ++ ">"
  /-- The body declares the constants, in order. -/
  constants : List.Forall₂ Declares m.constants (block.2.filter declaresConstant)

private theorem constants_cons {name : String} {code : Code} (h : Declares name code)
    {names : List String} {body : List Code}
    (hb : List.Forall₂ Declares names (body.filter declaresConstant)) :
    List.Forall₂ Declares (name :: names) ((code :: body).filter declaresConstant) := by
  have hc : declaresConstant code = true := by
    obtain ⟨value, rfl⟩ := h
    simp only [declaresConstant, String.append_assoc, startsWith_append]
  rw [List.filter_cons_of_pos hc]
  exact .cons h hb

private theorem constants_body (call : String) (m : MethodDef) :
    List.Forall₂ Declares m.constants
      ((Code.line ("const params = " ++ payloadText m.payload ++ ";") ::
        requestCode call m).filter declaresConstant) := by
  have hp : Declares "params" (.line ("const params = " ++ payloadText m.payload ++ ";")) :=
    ⟨payloadText m.payload ++ ";", congrArg Code.line (String.append_assoc ..)⟩
  have hr (request : String) : Declares "result" (.line ("const result = " ++ request)) :=
    ⟨request, rfl⟩
  unfold requestCode MethodDef.constants
  cases m.outcome with
  | dropped =>
    have hn (rest : String) : startsWith ("await " ++ rest) "const " = false :=
      startsWith_append_eq_false (by decide) (by decide) rest
    refine constants_cons hp ?_
    simp [declaresConstant, hn, String.append_assoc]
  | asIs type =>
    have hn (rest : String) : startsWith ("return result as " ++ rest) "const " = false :=
      startsWith_append_eq_false (by decide) (by decide) rest
    refine constants_cons hp (constants_cons (hr _) ?_)
    simp [declaresConstant, hn, String.append_assoc]
  | converted type expression =>
    have hn (rest : String) : startsWith ("return " ++ rest) "const " = false :=
      startsWith_append_eq_false (by decide) (by decide) rest
    refine constants_cons hp (constants_cons (hr _) ?_)
    simp [declaresConstant, hn, String.append_assoc]

private theorem showsMethod (call : String) (m : MethodDef) :
    ∃ block, (Code.blocks (methodCode call m)).filter isMethod = [block] ∧
      ShowsMethod m block := by
  have hm (rest : String) (body : List Code) : isMethod ("async " ++ rest, body) = true :=
    startsWith_append _ _
  refine ⟨(_, _), ?_, rfl, constants_body call m⟩
  simp [methodCode, String.append_assoc, hm]

/-- The methods of a class are the blocks behind its constructor. -/
private theorem showsMethods (call : String) (methods : List MethodDef) :
    List.Forall₂ ShowsMethod methods
      ((Code.blocks (methods.flatMap (methodCode call))).filter isMethod) := by
  rw [Code.blocks_flatMap, List.filter_flatMap]
  exact Code.forall₂_flatMap_singleton (showsMethod call) methods

private theorem showsMethods_group (c : GroupClass) :
    List.Forall₂ ShowsMethod c.methods ((Code.innerBlocks (groupClassCode c)).filter isMethod) := by
  have h := showsMethods "this.rpc" c.methods
  have hc (body : List Code) : isMethod ("constructor(rpc: RpcCall)", body) = false := by
    simp only [isMethod]
    decide
  simpa [Code.innerBlocks, groupClassCode, subgroupFields, List.filter_cons, hc] using h

private theorem showsMethods_client (s : Source) (c : ClientClass) :
    List.Forall₂ ShowsMethod c.methods
      ((Code.innerBlocks (clientClassCode s c)).filter isMethod) := by
  have h := showsMethods "this.call" c.methods
  have hb : Code.blocks (if c.subgroups = [] then [] else [.blank]) = [] := by
    split <;> simp
  have hc (body : List Code) : isMethod ("constructor(url: string = " ++
      defaultUrlText s.defaultUrl ++ ", headers?: object)", body) = false := by
    rw [isMethod, String.append_assoc]
    exact startsWith_append_eq_false (by decide) (by decide) _
  simpa [Code.innerBlocks, clientClassCode, subgroupFields, List.filter_cons, hc, hb] using h

/-- The methods in classes are written with their parameters and constants, in order. -/
private theorem showsMethods_source (s : Source) :
    List.Forall₂ ShowsMethod s.methods ((Code.innerBlocks (sourceCode s)).filter isMethod) := by
  have hh : Code.innerBlocks (Comment.block (Comment.heading s.title "client")) = [] := by
    simp [Code.innerBlocks]
  have hi : Code.innerBlocks (importCode s) = [] := by simp [Code.innerBlocks]
  have he : Code.innerBlocks (serversCode s) = [] := by simp [Code.innerBlocks, serversCode]
  have hp (i : ParametersInterface) : Code.innerBlocks (interfaceCode i) = [] := by
    simp [Code.innerBlocks, interfaceCode]
  have hs : (Code.innerBlocks serializeCode).filter isMethod = [] := by decide +kernel
  have hf : (s.interfaces.flatMap fun i ↦ (Code.innerBlocks (interfaceCode i)).filter isMethod) =
      [] := List.flatMap_eq_nil_iff.mpr fun i _ ↦ by rw [hp, List.filter_nil]
  have hg := Code.forall₂_flatMap showsMethods_group s.groupClasses
  have hc := Code.forall₂_flatMap (showsMethods_client s) s.clients
  simp only [sourceCode, Code.innerBlocks_append, Code.innerBlocks_flatMap, List.filter_append,
    List.filter_flatMap, hh, hi, he, hf, hs, List.nil_append, List.append_nil]
  exact List.rel_append hg hc

/-- The interfaces of parameters are written with their properties, in order. -/
private theorem interfaces_source (s : Source) :
    (Code.blocks (sourceCode s)).filter isInterface = s.interfaces.map fun i ↦
      ("export interface " ++ i.name, i.properties.flatMap propertyCode) := by
  have he : (Code.blocks (serversCode s)).filter isInterface = [] := by
    have hn (body : List Code) : isInterface ("export enum " ++ serversEnum, body) = false :=
      startsWith_append_eq_false (by decide) (by decide) serversEnum
    simp [serversCode, hn]
  have hp (i : ParametersInterface) : (Code.blocks (interfaceCode i)).filter isInterface =
      [("export interface " ++ i.name, i.properties.flatMap propertyCode)] := by
    have hn : isInterface ("export interface " ++ i.name, i.properties.flatMap propertyCode) =
      true := startsWith_append _ _
    simp [interfaceCode, hn]
  have hc (rest : String) (body : List Code) :
      isInterface ("export class " ++ rest, body) = false :=
    startsWith_append_eq_false (by decide) (by decide) rest
  have hg (c : GroupClass) : (Code.blocks (groupClassCode c)).filter isInterface = [] := by
    simp [groupClassCode, hc]
  have hl (c : ClientClass) : (Code.blocks (clientClassCode s c)).filter isInterface = [] := by
    simp [clientClassCode, String.append_assoc, hc]
  have hs : (Code.blocks serializeCode).filter isInterface = [] := by decide +kernel
  simp [sourceCode, he, hp, hg, hl, hs, List.filter_flatMap, List.map_eq_flatMap]

/-! ### Legal parameters -/

private theorem typeScriptIdentifier_eq_iff {target : String}
    (ht : target ∉ Naming.typeScriptReserved)
    (hu : ∀ word ∈ Naming.typeScriptReserved, word ++ "_" ≠ target) (text : String) :
    Naming.typeScriptIdentifier text = target ↔ Naming.camel text = target :=
  Naming.avoid_eq_iff ht hu _

/-- A method has the parameters of its operation, whichever way they travel. -/
private theorem argNames_methodOf_perm (models : Models) (key : String) (operation : Operation) :
    (methodOf models key operation).argNames.Perm
      (operation.paramNames.map Naming.typeScriptIdentifier) := by
  rw [MethodDef.argNames, methodOf, signatureOf]
  cases operation.passing with
  | byPosition => exact operation.names_orderedParams_perm .typeScript _
  | byName =>
    refine .of_eq ?_
    cases hp : operation.params with
    | nil => simp [Signature.names, Operation.paramNames, hp]
    | cons param params => simp [Signature.names, Operation.paramNames, hp]

private theorem constants_methodOf (models : Models) (key : String) (operation : Operation) :
    (methodOf models key operation).constants =
      if operation.returnsNothing then ["params"] else ["params", "result"] := by
  rw [MethodDef.constants, methodOf, outcomeOf]
  cases operation.returnsNothing with
  | true => rfl
  | false =>
    simp only [Bool.false_eq_true, if_false]
    cases fromJson? models operation.result.meaning "result" <;> rfl

/-- The parameters of the method for an operation are legal if their names differ in camel case and
none of them is `params` or, where something is returned, `result`. -/
private theorem legal_methodOf_iff (models : Models) (key : String) (operation : Operation) :
    (methodOf models key operation).Legal ↔
      (operation.paramNames.map Naming.camel).Nodup ∧
        "params" ∉ operation.paramNames.map Naming.camel ∧
        (operation.returnsNothing = false → "result" ∉ operation.paramNames.map Naming.camel) := by
  have hp := argNames_methodOf_perm models key operation
  have hm (target : String) (ht : target ∉ Naming.typeScriptReserved)
      (hu : ∀ word ∈ Naming.typeScriptReserved, word ++ "_" ≠ target) :
      target ∉ (methodOf models key operation).argNames ↔
        target ∉ operation.paramNames.map Naming.camel := by
    simp only [hp.mem_iff, List.mem_map, typeScriptIdentifier_eq_iff ht hu]
  rw [← Naming.nodup_map_typeScriptIdentifier_iff, ← hp.nodup_iff,
    ← hm "params" (by decide +kernel) (by decide +kernel),
    ← hm "result" (by decide +kernel) (by decide +kernel)]
  constructor
  · rintro ⟨hd, hu⟩
    simp only [constants_methodOf] at hu
    refine ⟨hd, fun hn ↦ hu _ hn ?_, fun hr hn ↦ hu _ hn (by simp [hr])⟩
    split <;> simp
  · rintro ⟨hd, hn, hr⟩
    refine ⟨hd, fun name hm hc ↦ ?_⟩
    rw [constants_methodOf] at hc
    split at hc
    · exact hn (List.mem_singleton.mp hc ▸ hm)
    · next hf =>
      rcases List.mem_pair.mp hc with rfl | rfl
      · exact hn hm
      · exact hr (by simpa using hf) hm

variable {document : Document} {plan : Plan}

/-- What holds of the methods of a source holds of those for all operations in the tree. -/
private theorem forall_methods_iff (made : plan.MadeFor document) {P : MethodDef → Prop} :
    (∀ m ∈ (sourceOf plan).methods, P m) ↔ ∀ group ∈ plan.root.descendants,
      ∀ entry ∈ group.operations, P (methodOf plan.interface.models entry.1 entry.2) := by
  obtain ⟨transport, ht⟩ := List.exists_mem_of_ne_nil _ made.transports_ne_nil
  rw [made.forall_descendants_iff, and_comm]
  simp only [Source.methods, sourceOf, groupClassOf, clientOf, methodsOf, List.forall_mem_append,
    List.forall_mem_flatMap, List.forall_mem_map]
  exact and_congr_right fun _ ↦ ⟨fun h ↦ h _ ht, fun h _ _ ↦ h⟩

/-- What holds of the interfaces of parameters holds of those for all operations whose parameters
are taken as one object. -/
private theorem forall_interfaces_iff (made : plan.MadeFor document)
    {P : ParametersInterface → Prop} :
    (∀ i ∈ (sourceOf plan).interfaces, P i) ↔
      ∀ operation ∈ plan.interface.operations, takesObject operation = true →
        P (interfaceOf operation) := by
  have hm (operation : Operation) : operation ∈ operationsOf plan ↔
      operation ∈ plan.interface.operations := (Group.operations_perm made.made.2).mem_iff
  simp only [sourceOf, List.forall_mem_map, List.mem_filter, hm, and_imp]

private theorem nodup_propertyNames_iff (operation : Operation) :
    (interfaceOf operation).propertyNames.Nodup ↔
      (operation.paramNames.map Naming.camel).Nodup := by
  rw [← Naming.nodup_map_typeScriptIdentifier_iff]
  simp [ParametersInterface.propertyNames, interfaceOf, Argument.ofParameter,
    Operation.paramNames, Function.comp_def]

/-- For a plan that is made for a document, the methods and the interfaces of parameters in the code
are those of its source. The methods all have legal parameters exactly if in every operation the
names of the parameters differ in camel case and none of them is `params` or, where something is
returned, `result`. The properties of interfaces differ exactly if those names do. -/
theorem methods_legal_iff (made : plan.MadeFor document) :
    List.Forall₂ ShowsMethod (sourceOf plan).methods
      ((Code.innerBlocks (sourceCode (sourceOf plan))).filter isMethod) ∧
    (Code.blocks (sourceCode (sourceOf plan))).filter isInterface =
      (sourceOf plan).interfaces.map (fun i ↦
        ("export interface " ++ i.name, i.properties.flatMap propertyCode)) ∧
    ((∀ m ∈ (sourceOf plan).methods, m.Legal) ↔ ∀ operation ∈ plan.interface.operations,
      (operation.paramNames.map Naming.camel).Nodup ∧
        "params" ∉ operation.paramNames.map Naming.camel ∧
        (operation.returnsNothing = false → "result" ∉ operation.paramNames.map Naming.camel)) ∧
    ((∀ i ∈ (sourceOf plan).interfaces, i.propertyNames.Nodup) ↔
      ∀ operation ∈ plan.interface.operations, takesObject operation = true →
        (operation.paramNames.map Naming.camel).Nodup) := by
  refine ⟨showsMethods_source _, interfaces_source _, ?_, ?_⟩
  · rw [forall_methods_iff made, ← made.forall_operations_iff]
    simp only [legal_methodOf_iff]
  · rw [forall_interfaces_iff made]
    simp only [nodup_propertyNames_iff]

/-- Reserved words and words in snake case may be parameters. -/
theorem methods_legal_default :
    ∃ plan, Plan.ofDocument (finding ["user_id", "default"] .byName) = .ok plan ∧
      (∀ m ∈ (sourceOf plan).methods, m.Legal) ∧
      ∀ i ∈ (sourceOf plan).interfaces, i.propertyNames.Nodup := by
  have hf : ((Plan.ofDocument (finding ["user_id", "default"] .byName)).toOption.map
      fun plan ↦ plan.interface.operations.map fun o ↦ o.paramNames.map Naming.camel) =
      some [["userId", "default"]] := by decide +kernel
  obtain ⟨plan, hp, hs⟩ := exists_ok_of_map_toOption hf
  have hn : ∀ operation ∈ plan.interface.operations,
      operation.paramNames.map Naming.camel = ["userId", "default"] :=
    fun _ ho ↦ List.mem_singleton.mp (hs ▸ List.mem_map_of_mem ho)
  obtain ⟨-, -, hl, hi⟩ := methods_legal_iff (.fresh hp)
  refine ⟨plan, hp, hl.mpr fun operation ho ↦ ?_, hi.mpr fun operation ho _ ↦ ?_⟩
  · rw [hn operation ho]
    exact ⟨by decide, by decide, fun _ ↦ by decide⟩
  · rw [hn operation ho]
    decide

/-- Parameters with different names can become one, or be declared once more in the body, and the
clients are written nevertheless. -/
theorem exists_method_not_legal :
    ∃ plan files,
      Plan.ofDocument (finding ["userId", "user_id", "params", "result"] .byName) = .ok plan ∧
      TypeScriptPackage.clientFiles plan = .ok files ∧
      (∃ m ∈ (sourceOf plan).methods, m.argNames = ["userId", "userId", "params", "result"] ∧
        m.constants = ["params", "result"] ∧ ¬ m.Legal) ∧
      ∃ i ∈ (sourceOf plan).interfaces, ¬ i.propertyNames.Nodup := by
  have hf : ((Plan.ofDocument
        (finding ["userId", "user_id", "params", "result"] .byName)).toOption.map fun plan ↦
      ((TypeScriptPackage.clientFiles plan).toOption.map fun _ ↦ (),
        (sourceOf plan).methods.map fun m ↦ (m.argNames, m.constants),
        (sourceOf plan).interfaces.map ParametersInterface.propertyNames)) =
      some (some (), [(["userId", "userId", "params", "result"], ["params", "result"])],
        [["userId", "userId", "params", "result"]]) := by
    decide +kernel
  obtain ⟨plan, hp, he⟩ := exists_ok_of_map_toOption hf
  simp only [Prod.mk.injEq] at he
  obtain ⟨hc, hm, hi⟩ := he
  obtain ⟨files, hw, -⟩ := exists_ok_of_map_toOption hc
  obtain ⟨m, hm, hn⟩ := List.mem_map.mp (hm ▸ List.mem_singleton_self _)
  obtain ⟨i, hi, hi'⟩ := List.mem_map.mp (hi ▸ List.mem_singleton_self _)
  obtain ⟨ha, hk⟩ := Prod.mk.inj hn
  refine ⟨plan, files, hp, hw, ⟨m, hm, ha, hk, fun h ↦ ?_⟩, i, hi, ?_⟩
  · have hd := h.distinct
    rw [ha] at hd
    exact absurd hd (by decide)
  · rw [hi']
    decide

end TypeScriptClient

end RpcForge

import RpcForge.Proofs.Code.Blocks
import RpcForge.Proofs.Package.Outline

/-!
# The code of generated clients

What is written for the outline of a client: one block for each class, in it one for each function
behind the constructor, and in each function one request. No other block has a function in it.
-/

namespace RpcForge

open PythonClient (CallStyle)

namespace Package

/-! ## Forms of the code -/

/-- The header of a class, which may extend another one. -/
def classHeader : Language → String → Option String → String
  | .python, name, none => "class " ++ name
  | .python, name, some base => "class " ++ name ++ "(" ++ base ++ ")"
  | .typeScript, name, none => "export class " ++ name
  | .typeScript, name, some base => "export class " ++ name ++ " extends " ++ base

/-- The header of a constructor. That of a Python client stands on several lines, of which this is
the last one. -/
def IsConstructorHeader : Language → (isClient : Bool) → String → Prop
  | .python, false, header => ∃ type, header = "def __init__(self, call: " ++ type ++ ") -> None"
  | .python, true, header => header = ") -> None"
  | .typeScript, false, header => header = "constructor(rpc: RpcCall)"
  | .typeScript, true, header =>
    ∃ url, header = "constructor(url: string = " ++ url ++ ", headers?: object)"

/-- What a constructor does before it assigns members. -/
def setUp : Language → (isClient hasMembers : Bool) → List Code
  | .python, false, _ => [.line "self._call = call"]
  | .python, true, _ => [.line "super().__init__(url, headers or \x7b\x7d)"]
  | .typeScript, false, _ => [.line "this.rpc = rpc;"]
  | .typeScript, true, false => [.line "super(url, headers);"]
  | .typeScript, true, true =>
    [.line "super(url, headers);",
      .line "const rpc: RpcCall = (method, params) => this.call(method, params);"]

/-- The assignment of a member: an object of its class, made from what sends requests. -/
def assignmentText : Language → (isClient : Bool) → SubgroupMember → String
  | .python, false, member => "self." ++ member.name ++ " = " ++ member.className ++ "(call)"
  | .python, true, member => "self." ++ member.name ++ " = " ++ member.className ++ "(self.call)"
  | .typeScript, _, member => "this." ++ member.name ++ " = new " ++ member.className ++ "(rpc);"

/-- What begins the header of a function that sends a request. -/
def functionWord : Language → CallStyle → String
  | .python, style => style.defWords ++ " "
  | .typeScript, _ => "async "

/-- The function of a class that sends requests. -/
def callName : Language → (isClient : Bool) → String
  | .python, false => "self._call"
  | .python, true => "self.call"
  | .typeScript, false => "this.rpc"
  | .typeScript, true => "this.call"

/-- What ends a statement. -/
def statementEnd : Language → String
  | .python => ""
  | .typeScript => ";"

/-- What begins the introduction of a name. -/
def bindingWord : Language → String
  | .python => ""
  | .typeScript => "const "

/-- The documentation at the beginning of a function. -/
def innerDocumentation : Language → String → List Code
  | .python, doc => Comment.docstring doc
  | .typeScript, _ => []

/-- The request for a method, by its name as it is. -/
def requestText (l : Language) (style : CallStyle) (call method : String) : String :=
  style.awaitWord ++ call ++ "(" ++ Text.quote method ++ ", params)" ++ statementEnd l

/-- The body of a function: the parameters, one request, and what is returned of the answer. -/
inductive IsFunctionBody (l : Language) (request : String) : List Code → Prop
  /-- The answer is dropped. -/
  | dropped (doc params : String) : IsFunctionBody l request
      (innerDocumentation l doc ++
        [.line (bindingWord l ++ "params = " ++ params ++ statementEnd l), .line request])
  /-- Something is returned. -/
  | returned (doc params value : String) : IsFunctionBody l request
      (innerDocumentation l doc ++
        [.line (bindingWord l ++ "params = " ++ params ++ statementEnd l),
          .line (bindingWord l ++ "result = " ++ request),
          .line ("return " ++ value ++ statementEnd l)])

/-- A block is a function as outlined. -/
structure ShowsFunction (l : Language) (style : CallStyle) (call : String) (f : FunctionOutline)
    (block : String × List Code) : Prop where
  /-- The header has the name in front of the parameters. -/
  header : ∃ rest, block.1 = functionWord l style ++ f.name ++ "(" ++ rest
  /-- The body sends the method. -/
  body : IsFunctionBody l (requestText l style call f.method) block.2

/-- A block is a class as outlined. -/
structure ShowsClass (l : Language) (isClient : Bool) (c : ClassOutline)
    (block : String × List Code) : Prop where
  /-- The header has the name; clients extend another class. -/
  header : ∃ base : Option String, base.isSome = isClient ∧ block.1 = classHeader l c.name base
  /-- A constructor assigns the members, and behind it there are just the functions. -/
  body : ∃ constructor functions, Code.blocks block.2 = constructor :: functions ∧
    IsConstructorHeader l isClient constructor.1 ∧
    constructor.2 = setUp l isClient (!c.members.isEmpty) ++
      c.members.map (fun member ↦ .line (assignmentText l isClient member)) ∧
    List.Forall₂ (ShowsFunction l c.style (callName l isClient)) c.functions functions

/-- A source has the classes as outlined, and no function in any other block. -/
def Shows (l : Language) (o : Outline) (code : List Code) : Prop :=
  ∃ before groups clients after, Code.blocks code = before ++ groups ++ clients ++ after ∧
    List.Forall₂ (ShowsClass l false) o.groups groups ∧
    List.Forall₂ (ShowsClass l true) (o.clients.map Prod.snd) clients ∧
    ∀ block ∈ before ++ after, ∀ inner ∈ Code.blocks block.2, ∀ style,
      Text.startsWith inner.1 (functionWord l style) = false

/-- The source with the clients for a plan. -/
def clientCode : Language → Plan → List Code
  | .python, plan => PythonClient.moduleCode (PythonClient.moduleOf plan)
  | .typeScript, plan => TypeScriptClient.sourceCode (TypeScriptClient.sourceOf plan)

end Package

/-! ## Python -/

namespace PythonClient

open Package

/-- A function sends its method. -/
theorem isFunctionBody (style : CallStyle) (call : String) (d : Def) :
    IsFunctionBody .python (requestText .python style call d.method)
      (Comment.docstring d.doc ++ [.line ("params = " ++ payloadText d.payload)] ++
        requestCode style call d) := by
  rw [requestText, statementEnd, String.append_empty]
  unfold requestCode
  generalize style.awaitWord ++ call ++ "(" ++ Text.quote d.method ++ ", params)" = request
  cases d.returns with
  | none =>
    simpa [innerDocumentation, bindingWord, statementEnd] using
      IsFunctionBody.dropped (l := .python) d.doc (payloadText d.payload)
  | some type =>
    simpa [innerDocumentation, bindingWord, statementEnd, ← String.append_assoc] using
      IsFunctionBody.returned (l := .python) d.doc (payloadText d.payload)
        ("TypeAdapter(" ++ type ++ ").validate_python(result)")

private theorem showsFunction (style : CallStyle) (call : String) (d : Def) :
    ∃ block, Code.blocks (defCode style call d) = [block] ∧
      ShowsFunction .python style call ⟨d.name, d.method⟩ block := by
  refine ⟨(defHeader style d, _), by simp [defCode], ⟨?_, isFunctionBody style call d⟩⟩
  refine ⟨", ".intercalate ("self" :: d.args.map argumentText) ++ ") -> " ++
    d.returns.getD "None", ?_⟩
  simp [defHeader, functionWord, String.append_assoc]

/-- The functions of a class are the blocks behind its constructor. -/
private theorem showsFunctions (style : CallStyle) (call : String) (defs : List Def) :
    List.Forall₂ (ShowsFunction .python style call) (defs.map fun d ↦ ⟨d.name, d.method⟩)
      (Code.blocks (defs.flatMap (defCode style call))) := by
  rw [List.forall₂_map_left_iff]
  exact Code.forall₂_blocks_flatMap (showsFunction style call) defs

private theorem subgroupCode_group :
    subgroupCode "call" = fun member ↦ .line (assignmentText .python false member) := by
  funext member
  simp [subgroupCode, assignmentText, String.append_assoc]

private theorem subgroupCode_client :
    subgroupCode "self.call" = fun member ↦ .line (assignmentText .python true member) := by
  funext member
  simp [subgroupCode, assignmentText, String.append_assoc]

theorem showsClass_group (c : GroupClass) :
    ∃ block, Code.blocks (groupClassCode c) = [block] ∧
      ShowsClass .python false c.outline block := by
  let constructor : String × List Code :=
    ("def __init__(self, call: " ++ c.style.callType ++ ") -> None",
      .line "self._call = call" :: c.subgroups.map (subgroupCode "call"))
  simp only [groupClassCode, Code.blocks_blank, Code.blocks_suite, Code.blocks_nil,
    List.cons.injEq, and_true, exists_eq_left']
  refine ⟨⟨none, rfl, rfl⟩, constructor, _, ?_, ⟨_, rfl⟩, ?_,
    showsFunctions c.style "self._call" c.defs⟩
  · simp [constructor]
  · simp [constructor, GroupClass.outline, setUp, subgroupCode_group]

theorem showsClass_client (m : Module) (c : ClientClass) :
    ∃ block, Code.blocks (clientClassCode m c) = [block] ∧
      ShowsClass .python true c.outline block := by
  let constructor : String × List Code :=
    (") -> None",
      .line "super().__init__(url, headers or \x7b\x7d)" ::
        c.subgroups.map (subgroupCode "self.call"))
  simp only [clientClassCode, Code.blocks_blank, Code.blocks_suite, Code.blocks_nil,
    List.cons.injEq, and_true, exists_eq_left']
  refine ⟨⟨some c.base, rfl, rfl⟩, constructor, _, ?_, rfl, ?_,
    showsFunctions c.style "self.call" c.defs⟩
  · simp [constructor]
  · simp [constructor, ClientClass.outline, setUp, subgroupCode_client]

@[simp] theorem blocks_importCode (m : Module) : Code.blocks (importCode m) = [] := by
  rw [importCode]
  split <;> simp

@[simp] theorem blocks_tupleCode (name : String) (items : List String) :
    Code.blocks (tupleCode name items) = [] := by
  simp [tupleCode]

/-- The module has the classes as outlined. -/
private theorem shows_moduleCode (m : Module) :
    Shows .python
      { groups := m.groupClasses.map GroupClass.outline
        clients := m.clients.map fun c ↦ (c.transport, c.outline) }
      (moduleCode m) := by
  refine ⟨Code.blocks (serversCode m ++ serializeCode),
    Code.blocks (m.groupClasses.flatMap groupClassCode),
    Code.blocks (m.clients.flatMap (clientClassCode m)), [], ?_, ?_, ?_, ?_⟩
  · simp only [moduleCode, Code.blocks_append, Comment.blocks_docstring, blocks_importCode,
      blocks_tupleCode, List.nil_append, List.append_nil, List.append_assoc]
  · rw [List.forall₂_map_left_iff]
    exact Code.forall₂_blocks_flatMap showsClass_group _
  · rw [List.map_map, List.forall₂_map_left_iff]
    exact Code.forall₂_blocks_flatMap (showsClass_client m) _
  · have he : ∀ block ∈ Code.blocks (serversCode m ++ serializeCode), Code.blocks block.2 = [] := by
      simp [serversCode, serializeCode]
    intro block hm inner hb
    rw [List.append_nil] at hm
    simp [he block hm] at hb

end PythonClient

/-! ## TypeScript -/

namespace TypeScriptClient

open Package

/-- A method sends its method. -/
theorem isFunctionBody (call : String) (m : MethodDef) :
    IsFunctionBody .typeScript (requestText .typeScript .awaited call m.method)
      (.line ("const params = " ++ payloadText m.payload ++ ";") :: requestCode call m) := by
  rw [requestText, statementEnd]
  unfold requestCode
  have hr : CallStyle.awaited.awaitWord ++ call ++ "(" ++ Text.quote m.method ++ ", params)" ++
      ";" = "await " ++ call ++ "(" ++ Text.quote m.method ++ ", params);" := by
    simp [CallStyle.awaitWord, String.append_assoc]
  rw [hr]
  generalize "await " ++ call ++ "(" ++ Text.quote m.method ++ ", params);" = request
  cases m.outcome with
  | dropped => exact .dropped "" _
  | asIs type =>
    simpa [innerDocumentation, bindingWord, statementEnd, ← String.append_assoc] using
      IsFunctionBody.returned (l := .typeScript) "" (payloadText m.payload) ("result as " ++ type)
  | converted type expression => exact .returned "" _ expression

private theorem showsFunction (call : String) (m : MethodDef) :
    ∃ block, Code.blocks (methodCode call m) = [block] ∧
      ShowsFunction .typeScript .awaited call ⟨m.name, m.method⟩ block := by
  refine ⟨_, by simp [methodCode]; rfl, ⟨?_, isFunctionBody call m⟩⟩
  refine ⟨signatureText m.signature ++ "): Promise<" ++ m.outcome.type ++ ">", ?_⟩
  simp [functionWord, String.append_assoc]

/-- The methods of a class are the blocks behind its constructor. -/
private theorem showsFunctions (call : String) (methods : List MethodDef) :
    List.Forall₂ (ShowsFunction .typeScript .awaited call) (methods.map fun m ↦ ⟨m.name, m.method⟩)
      (Code.blocks (methods.flatMap (methodCode call))) := by
  rw [List.forall₂_map_left_iff]
  exact Code.forall₂_blocks_flatMap (showsFunction call) methods

theorem showsClass_group (c : GroupClass) :
    ∃ block, Code.blocks (groupClassCode c) = [block] ∧
      ShowsClass .typeScript false c.outline block := by
  let constructor : String × List Code :=
    ("constructor(rpc: RpcCall)", .line "this.rpc = rpc;" :: subgroupAssignments c.subgroups)
  simp only [groupClassCode, Code.blocks_blank, Code.blocks_line, Code.blocks_braced,
    Code.blocks_nil, List.cons.injEq, and_true, exists_eq_left']
  refine ⟨⟨none, rfl, rfl⟩, constructor, _, ?_, rfl, rfl, showsFunctions "this.rpc" c.methods⟩
  simp [constructor, subgroupFields]

theorem showsClass_client (s : Source) (c : ClientClass) :
    ∃ block, Code.blocks (clientClassCode s c) = [block] ∧
      ShowsClass .typeScript true c.outline block := by
  let constructor : String × List Code :=
    ("constructor(url: string = " ++ defaultUrlText s.defaultUrl ++ ", headers?: object)",
      .line "super(url, headers);" ::
        if c.subgroups.isEmpty then []
        else
          .line "const rpc: RpcCall = (method, params) => this.call(method, params);" ::
            subgroupAssignments c.subgroups)
  simp only [clientClassCode, Code.blocks_blank, Code.blocks_line, Code.blocks_braced,
    Code.blocks_nil, List.cons.injEq, and_true, exists_eq_left']
  refine ⟨⟨some c.base, rfl, rfl⟩, constructor, _, ?_, ⟨_, rfl⟩, ?_,
    showsFunctions "this.call" c.methods⟩
  · have hb : Code.blocks (if c.subgroups.isEmpty then [] else [.blank]) = [] := by
      split <;> simp
    simp only [subgroupFields, Code.blocks_append, Code.blocks_map_line, hb, Code.blocks_braced,
      Code.blocks_nil, List.nil_append, List.singleton_append, constructor]
  · cases hs : c.subgroups with
    | nil => simp [constructor, ClientClass.outline, setUp, hs]
    | cons member members =>
      simp [constructor, ClientClass.outline, setUp, hs, subgroupAssignments, assignmentText]

@[simp] theorem blocks_importCode (s : Source) : Code.blocks (importCode s) = [] := by
  rw [importCode]
  split <;> simp [importLine]

@[simp] theorem blocks_propertyCode (p : Property) : Code.blocks (propertyCode p) = [] := by
  rw [propertyCode]
  cases p.description <;> simp

/-- The source has the classes as outlined. -/
private theorem shows_sourceCode (s : Source) :
    Shows .typeScript
      { groups := s.groupClasses.map GroupClass.outline
        clients := s.clients.map fun c ↦ (c.transport, c.outline) }
      (sourceCode s) := by
  refine ⟨Code.blocks (serversCode s ++ s.interfaces.flatMap interfaceCode),
    Code.blocks (s.groupClasses.flatMap groupClassCode),
    Code.blocks (s.clients.flatMap (clientClassCode s)), Code.blocks serializeCode, ?_, ?_, ?_, ?_⟩
  · simp only [sourceCode, Code.blocks_append, Comment.blocks_block, blocks_importCode,
      List.nil_append, List.append_assoc]
  · rw [List.forall₂_map_left_iff]
    exact Code.forall₂_blocks_flatMap showsClass_group _
  · rw [List.map_map, List.forall₂_map_left_iff]
    exact Code.forall₂_blocks_flatMap (showsClass_client s) _
  · have hb : ∀ block ∈ Code.blocks (serversCode s ++ s.interfaces.flatMap interfaceCode),
        Code.blocks block.2 = [] := by
      simp only [Code.blocks_append, Code.blocks_flatMap, List.forall_mem_append,
        List.forall_mem_flatMap, serversCode, interfaceCode, Code.blocks_blank, Code.blocks_braced,
        Code.blocks_line, Code.blocks_nil, List.forall_mem_singleton, Code.blocks_map_line,
        blocks_propertyCode]
      simp
    have ha : ∀ block ∈ Code.blocks serializeCode, ∀ inner ∈ Code.blocks block.2,
        Text.startsWith inner.1 "async " = false := by decide
    intro block hm inner hn style
    rcases List.mem_append.mp hm with hm | hm
    · simp [hb block hm] at hn
    · exact ha block hm inner hn

end TypeScriptClient

/-- The source with the clients for a plan has the classes as outlined. -/
theorem Package.shows_clientCode (l : Language) (plan : Plan) :
    Shows l (outline l plan) (clientCode l plan) := by
  cases l with
  | python => exact PythonClient.shows_moduleCode _
  | typeScript => exact TypeScriptClient.shows_sourceCode _

end RpcForge

import RpcForge.Proofs.Entries
import RpcForge.Proofs.Package.ClientCode
import RpcForge.Proofs.Package.Parameters

/-!
# The order of arguments

A generated function takes the parameters that have to be given before the others, but what it sends
keeps the order of the document: the i-th value of an array is that of the i-th parameter, and in an
object each value stands under the name of its own parameter.
-/

namespace RpcForge

open PythonClient (CallStyle)

open RpcForge.Text (quote)

/-- Parameters in another order: those that have to be given come first, and otherwise the order is
kept. -/
structure RequiredFirst (params ordered : List Parameter) : Prop where
  /-- They are the same parameters. -/
  perm : ordered.Perm params
  /-- What has to be given stands behind nothing that need not be given. -/
  pairwise : ordered.Pairwise fun earlier later ↦ later.required → earlier.required
  /-- Those that have to be given keep their order, and so do the others. -/
  stable : ∀ required, ordered.filter (·.required == required) =
    params.filter (·.required == required)

/-- A function takes what has to be given first. -/
theorem Operation.requiredFirst (operation : Operation) :
    RequiredFirst operation.params operation.orderedParams where
  perm := List.filter_append_perm _ _
  pairwise := by
    rw [orderedParams, List.pairwise_append]
    refine ⟨?_, ?_, fun earlier he _ _ _ ↦ (List.mem_filter.mp he).2⟩
    · exact List.pairwise_of_forall_mem_list fun earlier he _ _ _ ↦ (List.mem_filter.mp he).2
    · refine List.pairwise_of_forall_mem_list fun _ _ later hl hr ↦ ?_
      simpa [hr] using (List.mem_filter.mp hl).2
  stable required := by
    cases required <;> simp [orderedParams, List.filter_append, List.filter_filter]

namespace Package

/-- The name of a parameter in a target language. -/
def identifier : Language → String → String
  | .python => Naming.pythonIdentifier
  | .typeScript => Naming.typeScriptIdentifier

/-- A parameter in the header of a function, with a type. One that need not be given says so. -/
def parameterText : Language → Parameter → String
  | .python, param =>
    let type := TypeExpr.typeOf .python param.meaning
    if param.required then identifier .python param.name ++ ": " ++ type
    else identifier .python param.name ++ ": " ++ PythonClient.optionalType type ++ " = None"
  | .typeScript, param =>
    identifier .typeScript param.name ++ (if param.required then "" else "?") ++ ": " ++
      TypeExpr.typeOf .typeScript param.meaning

/-- What a function takes that takes its parameters in some order. In TypeScript those that are sent
by name are taken as one object. -/
def takenText : Language → Operation → List Parameter → String
  | .python, _, taken => ", ".intercalate ("self" :: taken.map (parameterText .python))
  | .typeScript, operation, taken =>
    match operation.passing with
    | .byPosition => ", ".intercalate (taken.map (parameterText .typeScript))
    | .byName =>
      if operation.params.isEmpty then ""
      else
        "\x7b " ++ ", ".intercalate (operation.paramNames.map (identifier .typeScript)) ++
          " \x7d: " ++ TypeScriptClient.interfaceName operation ++
          (if operation.params.all (!·.required) then " = \x7b\x7d" else "")

/-- The argument of a parameter as it is sent. -/
def sentArgument : Language → Parameter → String
  | .python, param => "_serialize(" ++ identifier .python param.name ++ ")"
  | .typeScript, param => identifier .typeScript param.name

/-- Arguments that are sent as an array. -/
def arrayText : Language → List String → String
  | .python, values => "[" ++ ", ".intercalate values ++ "]"
  | .typeScript, values => "serializeArrayParams([" ++ ", ".intercalate values ++ "])"

/-- Arguments that are sent as an object, each behind its key in quotes. -/
def objectText (l : Language) (members : List (String × String)) : String :=
  let entries := ", ".intercalate (members.map fun (key, value) ↦ quote key ++ ": " ++ value)
  match l with
  | .python => "\x7b" ++ entries ++ "\x7d"
  | .typeScript =>
    if members.isEmpty then "\x7b\x7d" else "serializeObjectParams(\x7b " ++ entries ++ " \x7d)"

/-- What is sent: the arguments in the order of the document, or each of them under the name of its
parameter. -/
def sentText (l : Language) (operation : Operation) : String :=
  match operation.passing with
  | .byPosition => arrayText l (operation.params.map (sentArgument l))
  | .byName => objectText l (operation.params.map fun param ↦ (param.name, sentArgument l param))

/-- The code of the function for an operation under a key of its group. -/
def functionCode (l : Language) (models : Models) (style : CallStyle) (call key : String)
    (operation : Operation) : List Code :=
  match l with
  | .python => PythonClient.defCode style call (PythonClient.defOf key operation)
  | .typeScript => TypeScriptClient.methodCode call (TypeScriptClient.methodOf models key operation)

/-- How calls are made where a way of calling is asked for: in TypeScript they are all awaited. -/
def styleIn : Language → CallStyle → CallStyle
  | .python, style => style
  | .typeScript, _ => .awaited

/-- A block is the function for an operation. It takes the parameters in some order, and sends them
in that of the document.

The text of what is sent calls functions of the source: `_serialize` in Python, and
`serializeArrayParams` or `serializeObjectParams` in TypeScript. They are taken for these functions
here, although a parameter whose identifier is one of these names would be called in their place. -/
structure SendsInOrder (l : Language) (style : CallStyle) (call key : String)
    (operation : Operation) (taken : List Parameter) (block : String × List Code) : Prop where
  /-- The parameters stand in the header as they are taken. -/
  header : ∃ rest, block.1 =
    functionWord l style ++ memberName l key ++ "(" ++ takenText l operation taken ++ ")" ++ rest
  /-- The body begins with what is sent. -/
  sent : ∃ doc answer, block.2 = innerDocumentation l doc ++
    .line (bindingWord l ++ "params = " ++ sentText l operation ++ statementEnd l) :: answer
  /-- This is what the request carries. -/
  request : IsFunctionBody l (requestText l (styleIn l style) call operation.name) block.2
  /-- Where the names differ, that of a parameter stands for the value that is given for it in the
  order in which the parameters are taken. -/
  bound : (operation.paramNames.map (identifier l)).Nodup → ∀ {α : Type} (value : Parameter → α),
    ∀ param ∈ operation.params,
      Entries.get? (taken.map fun p ↦ (identifier l p.name, value p)) (identifier l param.name) =
        some (value param)

/-- Values in any order are found under the names that they are given for. -/
private theorem get?_identifier {l : Language} {operation : Operation} {taken : List Parameter}
    (perm : taken.Perm operation.params) (hd : (operation.paramNames.map (identifier l)).Nodup)
    {α : Type} (value : Parameter → α) (param : Parameter) (hm : param ∈ operation.params) :
    Entries.get? (taken.map fun p ↦ (identifier l p.name, value p)) (identifier l param.name) =
      some (value param) := by
  refine Entries.get?_of_mem ?_ (List.mem_map.mpr ⟨param, perm.mem_iff.mpr hm, rfl⟩)
  rw [Operation.paramNames, List.map_map] at hd
  rw [Entries.keys, List.map_map]
  exact (perm.map (identifier l ∘ Parameter.name)).nodup_iff.mpr hd

end Package

/-! ## Python -/

namespace PythonClient

open Package

private theorem argumentText_ofParameter (param : Parameter) :
    argumentText (.ofParameter .python Naming.pythonIdentifier param) =
      parameterText .python param := by
  dsimp only [argumentText, Argument.ofParameter, parameterText, identifier]

private theorem defHeader_defOf (style : CallStyle) (key : String) (operation : Operation) :
    defHeader style (defOf key operation) =
      functionWord .python style ++ memberName .python key ++ "(" ++
        takenText .python operation operation.orderedParams ++ ")" ++
        (" -> " ++ (defOf key operation).returns.getD "None") := by
  have ha : (defOf key operation).args.map argumentText =
      operation.orderedParams.map (parameterText .python) := by
    rw [defOf, List.map_map]
    exact List.map_congr_left fun param _ ↦ argumentText_ofParameter param
  rw [defHeader, ha, show ") -> " = ")" ++ " -> " from rfl]
  simp only [takenText, functionWord, memberName, defOf, String.append_assoc]

private theorem payloadText_object (members : List (String × String)) :
    payloadText (.object members) =
      objectText .python (members.map fun (key, name) ↦ (key, serialized name)) := by
  rw [objectText, List.map_map]
  rfl

private theorem payloadText_ofOperation (operation : Operation) :
    payloadText (.ofOperation Naming.pythonIdentifier operation) = sentText .python operation := by
  rw [Payload.ofOperation, sentText]
  cases operation.passing with
  | byPosition => exact congrArg (arrayText .python) List.map_map
  | byName => exact (payloadText_object _).trans (congrArg _ List.map_map)

private theorem sendsInOrder (style : CallStyle) (call key : String) (operation : Operation) :
    ∃ block, Code.blocks (defCode style call (defOf key operation)) = [block] ∧
      SendsInOrder .python style call key operation operation.orderedParams block := by
  refine ⟨_, rfl, ⟨_, defHeader_defOf style key operation⟩,
    ⟨operation.docWith "Deprecated.", requestCode style call (defOf key operation), ?_⟩,
    isFunctionBody style call (defOf key operation), get?_identifier operation.requiredFirst.perm⟩
  have hp : payloadText (defOf key operation).payload = sentText .python operation :=
    payloadText_ofOperation operation
  simp only [hp, innerDocumentation, bindingWord, statementEnd, String.empty_append,
    String.append_empty, List.append_assoc, List.singleton_append]
  rfl

end PythonClient

/-! ## TypeScript -/

namespace TypeScriptClient

open Package

private theorem argumentText_ofParameter (param : Parameter) :
    argumentText (.ofParameter .typeScript Naming.typeScriptIdentifier param) =
      parameterText .typeScript param := by
  dsimp only [argumentText, Argument.ofParameter, parameterText, identifier]

private theorem signatureText_signatureOf (operation : Operation) :
    signatureText (signatureOf operation) =
      takenText .typeScript operation operation.orderedParams := by
  rw [signatureOf, takenText]
  cases operation.passing with
  | byPosition =>
    refine congrArg (", ".intercalate ·) (List.map_map.trans ?_)
    exact List.map_congr_left fun param _ ↦ argumentText_ofParameter param
  | byName =>
    rw [Operation.paramNames, List.map_map]
    dsimp only
    split
    · rfl
    · dsimp only [signatureText, identifier, Function.comp_def]

private theorem payloadText_ofOperation (operation : Operation) :
    payloadText (.ofOperation Naming.typeScriptIdentifier operation) =
      sentText .typeScript operation := by
  rw [Payload.ofOperation, sentText]
  cases operation.passing with
  | byPosition => rfl
  | byName => cases operation.params <;> rfl

private theorem sendsInOrder (models : Models) (style : CallStyle) (call key : String)
    (operation : Operation) :
    ∃ block, Code.blocks (methodCode call (methodOf models key operation)) = [block] ∧
      SendsInOrder .typeScript style call key operation operation.orderedParams block := by
  let m := methodOf models key operation
  have hb : Code.blocks (methodCode call m) =
      [("async " ++ m.name ++ "(" ++ signatureText m.signature ++ "): Promise<" ++
          m.outcome.type ++ ">",
        .line ("const params = " ++ payloadText m.payload ++ ";") :: requestCode call m)] := by
    simp [methodCode]
  have hs : signatureText m.signature = takenText .typeScript operation operation.orderedParams :=
    signatureText_signatureOf operation
  have hp : payloadText m.payload = sentText .typeScript operation :=
    payloadText_ofOperation operation
  refine ⟨_, hb, ⟨": Promise<" ++ m.outcome.type ++ ">", ?_⟩, ⟨"", requestCode call m, ?_⟩,
    isFunctionBody call m, get?_identifier operation.requiredFirst.perm⟩
  · rw [hs, show "): Promise<" = ")" ++ ": Promise<" from rfl]
    simp only [functionWord, memberName, m, methodOf, String.append_assoc]
  · rw [hp]
    rfl

end TypeScriptClient

example :
    let optional : Parameter := { name := "parent", meaning := .absent, required := false }
    let operation : Operation :=
      { name := "create", params := [optional, { optional with name := "name", required := true }] }
    PythonClient.defHeader .blocking (PythonClient.defOf "create" operation) =
        "def create(self, name: Any, parent: Optional[Any] = None) -> None" ∧
      Package.sentText .python operation = "[_serialize(parent), _serialize(name)]" := by
  decide +kernel

end RpcForge

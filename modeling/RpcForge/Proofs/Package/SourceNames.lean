import RpcForge.Proofs.Package.Declarations

/-!
# Names of a TypeScript source

The names that the source with the clients imports or declares are put together from the title of a
document, the paths of its groups and the names of its methods; the names of models are taken as
they are.
-/

namespace RpcForge

namespace TypeScriptClient

open Package

namespace Source

/-- The names that blocks of the source declare. -/
def declaredNames (s : Source) : List String :=
  serversEnum :: s.interfaces.map ParametersInterface.name ++ s.groupClasses.map GroupClass.name ++
    s.clients.map ClientClass.name ++ serializeFunctions

/-- The names besides those of models. -/
def ownNames (s : Source) : List String :=
  s.clients.map ClientClass.base ++ callType :: s.declaredNames

/-- The names besides those of models, by their endings. -/
def families (s : Source) : List (List Char × List String) :=
  [(Naming.ending "Client", s.clients.map ClientClass.base ++ s.clients.map ClientClass.name),
    (Naming.ending serversEnum, [serversEnum]),
    (Naming.ending callType, [callType]),
    (Naming.ending "Parameters", s.interfaces.map ParametersInterface.name),
    (Naming.ending "Methods", s.groupClasses.map GroupClass.name),
    (Naming.ending "Params", ["serializeArrayParams", "serializeObjectParams"]),
    (Naming.ending "serialize", ["serialize"])]

/-- Code has the names of a source: it imports what clients extend and the models, it introduces the
type of functions that send requests in a line, and its blocks declare the others. -/
structure Named (s : Source) (code : List Code) : Prop where
  /-- What clients extend is imported. -/
  bases : importLine (s.clients.map ClientClass.base) "jsonrpc2-tsclient" ∈ code
  /-- Models are imported, if there are some. -/
  models : ∀ names ∈ s.models, importLine names "./models.js" ∈ code
  /-- A line introduces the type of functions that send requests. -/
  callType :
    .line ("type " ++ callType ++ " = (method: string, params: any) => Promise<any>;") ∈ code
  /-- Blocks declare the other names, in order. -/
  blocks : List.Forall₂ (Declares .typeScript) s.declaredNames (Code.blocks code)

private theorem topLevelNames_perm (s : Source) :
    s.topLevelNames.Perm (s.models.getD [] ++ s.ownNames) := by
  rw [List.perm_iff_count]
  intro name
  simp [topLevelNames, ownNames, declaredNames, List.count_cons]
  omega

private theorem ownNames_perm (s : Source) : s.ownNames.Perm (s.families.flatMap Prod.snd) := by
  rw [List.perm_iff_count]
  intro name
  simp [ownNames, declaredNames, families, serializeFunctions, List.count_cons]
  omega

end Source

/-- Client names are the same only with the same first part and for the same transport. -/
private theorem clientName_inj {front front' : String} {transport other : Transport} :
    front ++ transport.classSuffix ++ "Client" = front' ++ other.classSuffix ++ "Client" ↔
      front = front' ∧ transport = other := by
  constructor
  · intro h
    have hl := congrArg String.toList h
    simp only [String.toList_append, List.append_left_inj] at hl
    have hc := congrArg List.getLast? hl
    cases transport with
    | http =>
      cases other with
      | http => simpa [Transport.classSuffix, String.toList_inj] using hl
      | ws => simp [Transport.classSuffix] at hc
    | ws =>
      cases other with
      | http => simp [Transport.classSuffix] at hc
      | ws => simpa [Transport.classSuffix, String.toList_inj] using hl
  · rintro ⟨rfl, rfl⟩
    rfl

/-- Clients and what they extend have different names if their first parts differ. -/
private theorem nodup_clientNames_iff {transports : List Transport} (hd : transports.Nodup)
    (hn : transports ≠ []) (front front' : String) :
    (transports.map (fun transport ↦ front ++ transport.classSuffix ++ "Client") ++
      transports.map fun transport ↦ front' ++ transport.classSuffix ++ "Client").Nodup ↔
        front ≠ front' := by
  have hm (front : String) :
      (transports.map fun transport ↦ front ++ transport.classSuffix ++ "Client").Nodup :=
    hd.map fun _ _ h ↦ (clientName_inj.mp h).2
  obtain ⟨transport, ht⟩ := List.exists_mem_of_ne_nil _ hn
  simp only [List.nodup_append, hm, true_and, List.forall_mem_map, ne_eq, clientName_inj, not_and]
  exact ⟨fun h he ↦ h transport ht transport ht he rfl, fun h _ _ _ _ he ↦ absurd he h⟩

/-- The endings of names are those of their families, and no two families have the same. -/
private theorem endings_families (plan : Plan) : ((sourceOf plan).families.map Prod.fst).Nodup ∧
    ∀ family ∈ (sourceOf plan).families, ∀ name ∈ family.2, Naming.ending name = family.1 := by
  have hd : (["Client", serversEnum, callType, "Parameters", "Methods", "Params",
      "serialize"].map Naming.ending).Nodup := by decide
  refine ⟨hd, ?_⟩
  simp only [Source.families, sourceOf, List.forall_mem_cons, List.forall_mem_append,
    List.forall_mem_map, List.not_mem_nil, false_implies, implies_true, and_true, true_and]
  refine ⟨⟨?_, ?_⟩, ?_, ?_, by decide, by decide⟩
  · exact fun transport _ ↦ Naming.ending_append _ (by decide)
  · exact fun transport _ ↦ Naming.ending_append _ (by decide)
  · exact fun operation _ ↦ Naming.ending_append _ (by decide)
  · exact fun group _ ↦ Naming.ending_append _ (by decide)

/-- Interfaces of parameters have different names if the operations have in Pascal case. -/
private theorem nodup_interfaceNames_iff {document : Document} {plan : Plan}
    (made : plan.MadeFor document) :
    ((sourceOf plan).interfaces.map ParametersInterface.name).Nodup ↔
      ((plan.interface.operations.filter takesObject).map
        fun operation ↦ Naming.pascal operation.name).Nodup := by
  have hj : Function.Injective fun name ↦ name ++ "Parameters" := by
    simpa using Naming.injective_between "" "Parameters"
  have hp := (((Group.operations_perm made.made.2).filter takesObject).map
    fun operation ↦ Naming.pascal operation.name)
  have hn : (sourceOf plan).interfaces.map ParametersInterface.name =
      (((operationsOf plan).filter takesObject).map
        fun operation ↦ Naming.pascal operation.name).map fun name ↦ name ++ "Parameters" := by
    simp only [sourceOf, List.map_map]
    rfl
  rw [hn, List.nodup_map_iff hj, ← hp.nodup_iff, operationsOf]

/-- When the names besides those of models differ. -/
private theorem nodup_ownNames_iff {document : Document} {plan : Plan}
    (made : plan.MadeFor document) (distinct : plan.transports.Nodup) :
    (sourceOf plan).ownNames.Nodup ↔
      ((plan.interface.operations.filter takesObject).map
        fun operation ↦ Naming.pascal operation.name).Nodup ∧
      (plan.groups.map Group.stem).Nodup ∧ plan.clientName ≠ "RPC" := by
  have hc : ((sourceOf plan).clients.map ClientClass.base ++
      (sourceOf plan).clients.map ClientClass.name).Nodup ↔ plan.clientName ≠ "RPC" := by
    simp only [sourceOf, List.map_map]
    exact (nodup_clientNames_iff distinct made.transports_ne_nil "RPC" plan.clientName).trans
      ne_comm
  have hg : ((sourceOf plan).groupClasses.map GroupClass.name).Nodup ↔
      (plan.groups.map Group.stem).Nodup := by
    simp only [sourceOf, List.map_map]
    exact plan.nodup_map_groupClass_iff "Methods" plan.groups
  have hf : ["serializeArrayParams", "serializeObjectParams"].Nodup := by decide
  obtain ⟨hd, he⟩ := endings_families plan
  rw [(Source.ownNames_perm _).nodup_iff, Naming.nodup_flatMap_iff_of_endings hd he]
  simp only [Source.families, List.forall_mem_cons, List.nodup_singleton, hc, hg, hf,
    nodup_interfaceNames_iff made, List.not_mem_nil, false_implies, implies_true, true_and,
    and_true]
  exact and_rotate

/-- Names of models differ from each other. -/
private theorem nodup_models (plan : Plan) : ((sourceOf plan).models.getD []).Nodup := by
  simp only [sourceOf]
  split
  · exact plan.interface.models.distinct
  · exact List.nodup_nil

/-- The blocks of the source declare the names that it does not import, in order. -/
private theorem declares_sourceCode (plan : Plan) :
    List.Forall₂ (Declares .typeScript) (sourceOf plan).declaredNames
      (Code.blocks (sourceCode (sourceOf plan))) := by
  have hs : List.Forall₂ (Declares .typeScript) [serversEnum]
      (Code.blocks (serversCode (sourceOf plan))) := by
    simp only [serversCode, Code.blocks_blank, Code.blocks_braced, Code.blocks_line,
      Code.blocks_nil]
    exact .cons ⟨by decide, "export enum ", by decide, "", rfl, by decide⟩ .nil
  have hp : List.Forall₂ (Declares .typeScript)
      ((sourceOf plan).interfaces.map ParametersInterface.name)
      (Code.blocks ((sourceOf plan).interfaces.flatMap interfaceCode)) := by
    refine declares_blocks (fun i ↦ ⟨_, by simp [interfaceCode]; rfl, ?_⟩) fun i hi ↦ ?_
    · exact ⟨"export interface ", by decide, "", by simp, by decide⟩
    · obtain ⟨operation, -, rfl⟩ := List.mem_map.mp hi
      exact (Naming.isWord_cased _ _).append (by decide)
  have hg : List.Forall₂ (Declares .typeScript) ((sourceOf plan).groupClasses.map GroupClass.name)
      (Code.blocks ((sourceOf plan).groupClasses.flatMap groupClassCode)) := by
    refine declares_classes showsClass_group fun c hc ↦ ?_
    obtain ⟨group, -, rfl⟩ := List.mem_map.mp hc
    exact plan.isWord_groupClass (by decide) group
  have hc : List.Forall₂ (Declares .typeScript) ((sourceOf plan).clients.map ClientClass.name)
      (Code.blocks ((sourceOf plan).clients.flatMap (clientClassCode (sourceOf plan)))) := by
    refine declares_classes (showsClass_client (sourceOf plan)) fun c hc ↦ ?_
    obtain ⟨transport, -, rfl⟩ := List.mem_map.mp hc
    exact ((Naming.isWord_cased _ _).append (by cases transport <;> decide)).append (by decide)
  have hf : List.Forall₂ (Declares .typeScript) serializeFunctions (Code.blocks serializeCode) := by
    simp only [serializeCode, serializeFunctions, Code.blocks_blank, Code.blocks_braced,
      Code.blocks_nil]
    refine .cons ⟨by decide, ?_⟩ (.cons ⟨by decide, ?_⟩ (.cons ⟨by decide, ?_⟩ .nil))
    · exact ⟨"function ", by decide, "(values: any[]): any[]", rfl, by decide⟩
    · exact ⟨"function ", by decide,
        "(values: \x7b [key: string]: any \x7d): \x7b [key: string]: any \x7d", rfl, by decide⟩
    · exact ⟨"function ", by decide, "(value: any): any", rfl, by decide⟩
  have hall := List.rel_append (List.rel_append (List.rel_append (List.rel_append hs hp) hg) hc) hf
  simpa [Source.declaredNames, sourceCode] using hall

/-- The code of a source has its names. -/
private theorem named_sourceCode (plan : Plan) :
    (sourceOf plan).Named (sourceCode (sourceOf plan)) := by
  refine ⟨?_, fun names hm ↦ ?_, ?_, declares_sourceCode plan⟩
  · simp [sourceCode, importCode]
  · simp [sourceCode, importCode, Option.mem_def.mp hm]
  · simp [sourceCode, serversCode, callType]

/-- For a plan that is made for a document, with transports of which none comes twice, the names
that the source imports or declares differ exactly if no model has the name of something else, no
two methods that take an object have the same name in Pascal case, no two groups have the same stem,
and clients are not named as what they extend. -/
theorem sourceNames_nodup_iff {document : Document} {plan : Plan} (made : plan.MadeFor document)
    (distinct : plan.transports.Nodup) :
    (sourceOf plan).Named (sourceCode (sourceOf plan)) ∧
    (sourceOf plan).topLevelNames.Perm
      ((sourceOf plan).models.getD [] ++ (sourceOf plan).ownNames) ∧
    ((sourceOf plan).topLevelNames.Nodup ↔
      (∀ name ∈ (sourceOf plan).models.getD [], name ∉ (sourceOf plan).ownNames) ∧
      ((plan.interface.operations.filter takesObject).map
        fun operation ↦ Naming.pascal operation.name).Nodup ∧
      (plan.groups.map Group.stem).Nodup ∧ plan.clientName ≠ "RPC") := by
  have hp := Source.topLevelNames_perm (sourceOf plan)
  refine ⟨named_sourceCode plan, hp, ?_⟩
  rw [hp.nodup_iff, List.nodup_append', and_iff_right (nodup_models plan),
    nodup_ownNames_iff made distinct, and_comm]
  exact Iff.rfl

/-- A document with methods of given names, each of which takes a parameter by its name. -/
def keyed (methods : List (String × String)) : Document where
  openrpc := "1.3.2"
  info := { title := "Clash", version := "1" }
  methods := methods.map fun (name, param) ↦ .inline {
    name := name
    params := [.inline { name := param, schema := .flag true }]
    paramStructure := some .byName }

/-- Methods in different groups may end alike. -/
theorem sourceNames_nodup_put :
    ∃ plan, Plan.ofDocument (keyed [("get.item", "id"), ("put.item", "key")]) = .ok plan ∧
      (sourceOf plan).topLevelNames.Nodup := by
  have hf : ((Plan.ofDocument (keyed [("get.item", "id"), ("put.item", "key")])).toOption.map
      fun plan ↦ (plan.transports, (sourceOf plan).models.getD [],
        (plan.interface.operations.filter takesObject).map fun o ↦ Naming.pascal o.name,
        plan.groups.map Group.stem, plan.clientName)) =
      some ([.http], [], ["GetItem", "PutItem"], ["Get", "Put"], "Clash") := by decide +kernel
  obtain ⟨plan, hp, he⟩ := exists_ok_of_map_toOption hf
  simp only [Prod.mk.injEq] at he
  obtain ⟨ht, hm, hi, hg, hc⟩ := he
  refine ⟨plan, hp, (sourceNames_nodup_iff (.fresh hp) ?_).2.2.mpr ⟨?_, ?_, ?_, ?_⟩⟩
  · rw [ht]
    decide
  · rw [hm]
    exact List.forall_mem_nil _
  · rw [hi]
    decide
  · rw [hg]
    decide
  · rw [hc]
    decide

/-- Different methods can have one interface of parameters, and the clients are written
nevertheless. -/
theorem exists_sourceNames_not_nodup :
    ∃ plan files, Plan.ofDocument (keyed [("get.item", "id"), ("getItem", "key")]) = .ok plan ∧
      TypeScriptPackage.clientFiles plan = .ok files ∧
      (sourceOf plan).interfaces.map ParametersInterface.name =
        ["GetItemParameters", "GetItemParameters"] ∧
      ¬ (sourceOf plan).topLevelNames.Nodup := by
  have hf : ((Plan.ofDocument (keyed [("get.item", "id"), ("getItem", "key")])).toOption.map
      fun plan ↦ ((TypeScriptPackage.clientFiles plan).toOption.map fun _ ↦ (),
        (sourceOf plan).interfaces.map ParametersInterface.name, (sourceOf plan).topLevelNames)) =
      some (some (), ["GetItemParameters", "GetItemParameters"],
        ["RPCHTTPClient", "Servers", "RpcCall", "GetItemParameters", "GetItemParameters",
          "ClashGetMethods", "ClashHTTPClient", "serializeArrayParams", "serializeObjectParams",
          "serialize"]) := by decide +kernel
  obtain ⟨plan, hp, he⟩ := exists_ok_of_map_toOption hf
  simp only [Prod.mk.injEq] at he
  obtain ⟨hc, hi, hn⟩ := he
  obtain ⟨files, hw, -⟩ := exists_ok_of_map_toOption hc
  refine ⟨plan, files, hp, hw, hi, ?_⟩
  rw [hn]
  decide

end TypeScriptClient

end RpcForge

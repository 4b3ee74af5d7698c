import RpcForge.Proofs.Naming.Identifier
import RpcForge.Proofs.Package.Declarations
import RpcForge.Proofs.Text.Parts

/-!
# Servers of generated clients

A document has a server in any case: where it lists none, the default one is taken. Every server
becomes a constant with a name of its own, and a client that is not given an address uses the one
that was chosen, or else the constant of the first server. It never has to fall back on anything.
-/

namespace RpcForge

open RpcForge.Text (quote append_ne_append ne_of_startsWith startsWith_append)

/-! ## Constants -/

private theorem Document.effectiveServers_ne_nil (document : Document) :
    document.effectiveServers ≠ [] := by
  unfold effectiveServers
  split <;> exact List.cons_ne_nil _ _

namespace Plan

/-- A constant for a server: a name that is made from that of the server, and its address. -/
structure IsConstantFor (server : Server) (constant : String × String) : Prop where
  /-- The name is made from that of the server in capitals. -/
  madeFrom : Naming.MadeFrom (Naming.shouty server.name) constant.1
  /-- The name is an identifier. -/
  isIdentifier : Naming.IsIdentifier constant.1
  /-- The address is that of the server, filled in with the defaults of its variables. -/
  url_eq : constant.2 = server.resolveUrl

variable {document : Document} {plan : Plan}

private theorem MadeFor.endpoints_eq (h : MadeFor document plan) :
    plan.interface.endpoints =
      document.effectiveServers.map fun server ↦ ⟨server.name, server.resolveUrl⟩ := by
  obtain ⟨-, -, he, -⟩ := (Interface.ofDocument_eq_ok_iff _ _).mp h.made.1
  rw [he, Interface.withOperations]

private theorem MadeFor.serverConstants_eq (h : MadeFor document plan) :
    plan.serverConstants =
      (Naming.unique (document.effectiveServers.map fun server ↦ Naming.shouty server.name)).zip
        (document.effectiveServers.map Server.resolveUrl) := by
  rw [serverConstants, h.endpoints_eq, List.map_map, List.map_map]
  rfl

/-- There is a constant for each server, in order. -/
private theorem MadeFor.isConstantFor (h : MadeFor document plan) :
    List.Forall₂ IsConstantFor document.effectiveServers plan.serverConstants := by
  have hu : List.Forall₂ (fun server url ↦ url = Server.resolveUrl server)
      document.effectiveServers (document.effectiveServers.map Server.resolveUrl) := by
    rw [List.forall₂_map_right_iff]
    exact List.forall₂_same.mpr fun _ _ ↦ rfl
  rw [h.serverConstants_eq]
  apply (forall₂_zip_right (Naming.madeFrom_unique_map _ _) hu).imp
  rintro server constant ⟨hm, hc⟩
  have hi : Naming.IsIdentifier (Naming.shouty server.name) := Naming.isIdentifier_cased _ _
  have hn : Naming.shouty server.name ≠ "" := by
    obtain ⟨c, cs, hl, -⟩ := hi
    intro he
    rw [he] at hl
    cases hl
  exact ⟨hm, (hm.isIdentifier_iff hn).mpr hi, hc⟩

private theorem MadeFor.nodup_constantNames (h : MadeFor document plan) :
    (plan.serverConstants.map Prod.fst).Nodup := by
  rw [h.serverConstants_eq, List.map_fst_zip (by simp)]
  exact Naming.nodup_unique _

/-- The first constant is the one for the first server. -/
private theorem MadeFor.exists_serverConstants_eq (h : MadeFor document plan) :
    ∃ first servers name constants, document.effectiveServers = first :: servers ∧
      plan.serverConstants = (name, first.resolveUrl) :: constants := by
  have hc := h.isConstantFor
  obtain ⟨first, servers, hs⟩ := List.exists_cons_of_ne_nil document.effectiveServers_ne_nil
  rw [hs] at hc
  cases hp : plan.serverConstants with
  | nil =>
    rw [hp] at hc
    cases hc
  | cons constant constants =>
    rw [hp] at hc
    cases hc with
    | cons hf _ => exact ⟨first, servers, constant.1, constants, hs, by rw [← hf.url_eq]⟩

end Plan

namespace Package

/-! ## Code -/

/-- The header of the type with the constants. -/
def serversHeader : Language → String
  | .python => "class Servers"
  | .typeScript => "export enum Servers"

/-- What stands before the constants in their type. -/
def serversIntroduction : Language → List Code
  | .python => Comment.docstring "Servers listed in the API description." ++ [.blank]
  | .typeScript => []

/-- What ends the declaration of a constant. -/
def constantEnd : Language → String
  | .python => ""
  | .typeScript => ","

/-- The declaration of a constant: its name with its address as a string. -/
def constantText (l : Language) (constant : String × String) : String :=
  constant.1 ++ " = " ++ quote constant.2 ++ constantEnd l

/-- The constructor in the body of a client has a default for the address. -/
def HasDefaultUrl : Language → (default : String) → List Code → Prop
  | .python, default, body =>
    [.line "def __init__(",
      .nested [.line "self,", .line ("url: str = " ++ default ++ ","),
        .line "headers: Optional[dict[str, Any]] = None,"]] <:+: body
  | .typeScript, default, body =>
    "constructor(url: string = " ++ default ++ ", headers?: object)" ∈
      (Code.blocks body).map Prod.fst

/-- A source offers constants: one block declares them all and nothing else, and every client has
the same default for its address. -/
structure OffersServers (l : Language) (constants : List (String × String)) (clients : List String)
    (default : String) (code : List Code) : Prop where
  /-- There is one type with the constants. -/
  declared : (Code.blocks code).filter (·.1 == serversHeader l) =
    [(serversHeader l, serversIntroduction l ++
      constants.map fun constant ↦ .line (constantText l constant))]
  /-- There is one class for each client, with that default. -/
  defaults : ∃ before classes after, Code.blocks code = before ++ classes ++ after ∧
    List.Forall₂ (fun name block ↦
      (∃ base, block.1 = classHeader l name (some base)) ∧ HasDefaultUrl l default block.2)
      clients classes

/-- No class has the header of the type with the constants unless it has that name and extends
nothing. -/
private theorem classHeader_ne_serversHeader (l : Language) {name : String} {base : Option String}
    (h : base = none → name ≠ "Servers") : classHeader l name base ≠ serversHeader l := by
  cases l with
  | python =>
    cases base with
    | none =>
      intro he
      have hs : serversHeader .python = "class " ++ "Servers" := by decide
      have hn : "class " ++ name = "class " ++ "Servers" := he.trans hs
      exact h rfl ((String.append_right_inj "class ").mp hn)
    | some base =>
      have hs : serversHeader .python = "class Server" ++ "s" := by decide
      rw [hs]
      exact append_ne_append (by decide) (by decide) _ _
  | typeScript =>
    have hc : RpcForge.Text.startsWith (classHeader .typeScript name base) "export class " =
        true := by
      cases base with
      | none => exact startsWith_append _ _
      | some base =>
        have he : classHeader .typeScript name (some base) =
            "export class " ++ (name ++ (" extends " ++ base)) := by
          show "export class " ++ name ++ " extends " ++ base = _
          rw [String.append_assoc, String.append_assoc]
        rw [he]
        exact startsWith_append _ _
    exact ne_of_startsWith hc (by decide)

/-- Classes that are named otherwise do not have the header of the type with the constants. -/
private theorem header_ne_of_shown {α : Type} {l : Language} {isClient : Bool} {f : α → List Code}
    {classOf : α → ClassOutline}
    (h : ∀ a, ∃ block, Code.blocks (f a) = [block] ∧ ShowsClass l isClient (classOf a) block)
    {as : List α} (hn : ∀ a ∈ as, (classOf a).name ≠ "Servers") :
    ∀ block ∈ Code.blocks (as.flatMap f), block.1 ≠ serversHeader l := by
  intro block hm
  rw [Code.blocks_flatMap, List.mem_flatMap] at hm
  obtain ⟨a, ha, hm⟩ := hm
  obtain ⟨shown, hb, ⟨base, -, hh⟩, -⟩ := h a
  obtain rfl : block = shown := by simpa [hb] using hm
  rw [hh]
  exact classHeader_ne_serversHeader l fun _ ↦ hn a ha

/-- A source offers the constants if its first block declares them, no other block has the header of
that one, and the classes of the clients have the default. -/
private theorem OffersServers.of_blocks {l : Language} {constants : List (String × String)}
    {clients : List String} {default : String} {code : List Code}
    (before classes after : List (String × List Code))
    (hb : Code.blocks code =
      (serversHeader l, serversIntroduction l ++
        constants.map fun constant ↦ Code.line (constantText l constant)) ::
        (before ++ classes ++ after))
    (hn : ∀ block ∈ before ++ after, block.1 ≠ serversHeader l)
    (hc : List.Forall₂ (fun name block ↦
      (∃ base, block.1 = classHeader l name (some base)) ∧ HasDefaultUrl l default block.2)
      clients classes) : OffersServers l constants clients default code where
  declared := by
    have hr : (before ++ classes ++ after).filter (·.1 == serversHeader l) = [] := by
      rw [List.filter_eq_nil_iff]
      intro block hm
      rw [beq_iff_eq]
      by_cases hk : block ∈ classes
      · obtain ⟨i, hi, rfl⟩ := List.getElem_of_mem hk
        obtain ⟨base, he⟩ : ∃ base, classes[i].1 = classHeader l _ (some base) :=
          (hc.get (hc.length_eq ▸ hi) hi).1
        rw [he]
        exact classHeader_ne_serversHeader l nofun
      · apply hn
        simpa [hk] using hm
    rw [hb, List.filter_cons, if_pos (beq_self_eq_true _), hr]
  defaults := ⟨_ :: before, classes, after, hb, hc⟩

end Package

open Package

private theorem Plan.groupClass_ne_servers (plan : Plan) (style : PythonClient.CallStyle)
    (group : Group) :
    plan.groupClass style.classSuffix group ≠ "Servers" := by
  have hs : "Servers" = "" ++ "Servers" := by decide
  rw [groupClass_eq, hs]
  cases style with
  | blocking => exact append_ne_append (by decide) (by decide) _ _
  | awaited =>
    have ha : PythonClient.CallStyle.awaited.classSuffix = "Async" ++ "Methods" := by decide
    rw [ha, ← String.append_assoc]
    exact append_ne_append (by decide) (by decide) _ _

/-! ## Python -/

namespace PythonClient

/-- A client is written as a class whose constructor has the default of the module. -/
private theorem hasDefaultUrl (m : Module) (c : ClientClass) :
    ∃ block, Code.blocks (clientClassCode m c) = [block] ∧
      (∃ base, block.1 = classHeader .python c.name (some base)) ∧
      HasDefaultUrl .python (defaultUrlText m.defaultUrl) block.2 := by
  simp only [clientClassCode, Code.blocks_blank, Code.blocks_suite, Code.blocks_nil,
    List.cons.injEq, and_true, exists_eq_left']
  refine ⟨⟨c.base, rfl⟩, ?_⟩
  generalize Comment.docstring
    (flavor c.style ++ m.title ++ " client over " ++ c.transport.classSuffix ++ ".") = doc
  refine ⟨doc ++ [Code.blank], Code.suite ") -> None"
    (Code.line "super().__init__(url, headers or \x7b\x7d)" ::
      c.subgroups.map (subgroupCode "self.call")) :: c.defs.flatMap (defCode c.style "self.call"),
    ?_⟩
  simp

/-- The module with the clients offers the servers. -/
private theorem offersServers (plan : Plan) :
    OffersServers .python plan.serverConstants ((clientsOf plan).map ClientClass.name)
      (defaultUrlText plan.defaultUrl) (moduleCode (moduleOf plan)) := by
  have hl : ∀ constant, constantText .python constant =
      constant.1 ++ " = " ++ quote constant.2 :=
    fun constant ↦ String.append_empty
  refine .of_blocks
    (Code.blocks serializeCode ++
      Code.blocks ((moduleOf plan).groupClasses.flatMap groupClassCode))
    (Code.blocks ((moduleOf plan).clients.flatMap (clientClassCode (moduleOf plan)))) [] ?_ ?_ ?_
  · simp only [moduleCode, serversCode, serversIntroduction, Code.blocks_append,
      Comment.blocks_docstring, blocks_importCode, blocks_tupleCode, Code.blocks_blank,
      Code.blocks_suite, List.nil_append, List.append_nil, List.append_assoc, List.cons_append, hl]
    generalize Comment.docstring "Servers listed in the API description." = doc
    rfl
  · rw [List.append_nil, List.forall_mem_append]
    refine ⟨by decide, header_ne_of_shown showsClass_group fun c hc ↦ ?_⟩
    obtain ⟨style, -, hc⟩ := List.mem_flatMap.mp hc
    obtain ⟨group, -, rfl⟩ := List.mem_map.mp hc
    exact plan.groupClass_ne_servers style group
  · rw [List.forall₂_map_left_iff]
    exact Code.forall₂_blocks_flatMap (hasDefaultUrl (moduleOf plan)) (clientsOf plan)

end PythonClient

/-! ## TypeScript -/

namespace TypeScriptClient

/-- A client is written as a class whose constructor has the default of the source. -/
private theorem hasDefaultUrl (s : Source) (c : ClientClass) :
    ∃ block, Code.blocks (clientClassCode s c) = [block] ∧
      (∃ base, block.1 = classHeader .typeScript c.name (some base)) ∧
      HasDefaultUrl .typeScript (defaultUrlText s.defaultUrl) block.2 := by
  simp only [clientClassCode, Code.blocks_blank, Code.blocks_line, Code.blocks_braced,
    Code.blocks_nil, List.cons.injEq, and_true, exists_eq_left']
  refine ⟨⟨c.base, rfl⟩, ?_⟩
  simp [HasDefaultUrl, subgroupFields]

private theorem header_interface_ne (s : Source) :
    ∀ block ∈ Code.blocks (s.interfaces.flatMap interfaceCode),
      block.1 ≠ serversHeader .typeScript := by
  intro block hm
  rw [Code.blocks_flatMap, List.mem_flatMap] at hm
  obtain ⟨i, -, hm⟩ := hm
  have hb : block = ("export interface " ++ i.name, i.properties.flatMap propertyCode) := by
    simpa [interfaceCode] using hm
  rw [hb]
  exact ne_of_startsWith (startsWith_append _ _) (by decide)

/-- The source with the clients offers the servers. -/
private theorem offersServers (plan : Plan) :
    OffersServers .typeScript plan.serverConstants
      ((sourceOf plan).clients.map ClientClass.name)
      (defaultUrlText plan.defaultUrl) (sourceCode (sourceOf plan)) := by
  refine .of_blocks
    (Code.blocks ((sourceOf plan).interfaces.flatMap interfaceCode) ++
      Code.blocks ((sourceOf plan).groupClasses.flatMap groupClassCode))
    (Code.blocks ((sourceOf plan).clients.flatMap (clientClassCode (sourceOf plan))))
    (Code.blocks serializeCode) ?_ ?_ ?_
  · simp only [sourceCode, serversCode, Code.blocks_append, Comment.blocks_block,
      blocks_importCode, Code.blocks_blank, Code.blocks_braced, Code.blocks_line, List.nil_append,
      List.append_assoc, List.cons_append]
    rfl
  · rw [List.forall_mem_append, List.forall_mem_append]
    refine ⟨⟨header_interface_ne _, header_ne_of_shown showsClass_group fun c hc ↦ ?_⟩, by decide⟩
    obtain ⟨group, -, rfl⟩ := List.mem_map.mp hc
    exact plan.groupClass_ne_servers .blocking group
  · rw [List.forall₂_map_left_iff]
    exact Code.forall₂_blocks_flatMap (hasDefaultUrl (sourceOf plan)) (sourceOf plan).clients

end TypeScriptClient

/-! ## Defaults -/

/-- Where there is a constant, the default is the chosen address or else the first constant. -/
private theorem Plan.defaultUrl_eq {plan : Plan} {name url : String}
    {constants : List (String × String)} (h : plan.serverConstants = (name, url) :: constants) :
    plan.defaultUrl = plan.clientUrl.elim (.constant name) .literal := by
  unfold defaultUrl
  rw [h]
  cases plan.clientUrl <;> rfl

namespace Package

/-- In both languages the servers are offered, with the chosen address or else the first constant as
the default. -/
private theorem offersServers (l : Language) {plan : Plan} {name url : String}
    {constants : List (String × String)} (h : plan.serverConstants = (name, url) :: constants) :
    OffersServers l plan.serverConstants ((outline l plan).clients.map fun client ↦ client.2.name)
      (plan.clientUrl.elim ("Servers." ++ name) quote) (clientCode l plan) := by
  cases l with
  | python =>
    have hd : PythonClient.defaultUrlText plan.defaultUrl =
        plan.clientUrl.elim ("Servers." ++ name) quote := by
      rw [Plan.defaultUrl_eq h]
      cases plan.clientUrl <;> rfl
    have ho := PythonClient.offersServers plan
    rw [hd] at ho
    simp only [outline, List.map_map]
    exact ho
  | typeScript =>
    have hd : TypeScriptClient.defaultUrlText plan.defaultUrl =
        plan.clientUrl.elim ("Servers." ++ name) quote := by
      rw [Plan.defaultUrl_eq h]
      cases plan.clientUrl <;> rfl
    have ho := TypeScriptClient.offersServers plan
    rw [hd] at ho
    simp only [outline, List.map_map]
    exact ho

/-- For a plan that is made for a document, every server of the document has a constant, in order,
with an identifier for a name and its address, and no two constants have the same name. There is a
first server, so in both languages the address of each client is by default the one that was chosen,
or else the constant of that server, which the source declares. -/
theorem clients_default_server {document : Document} {plan : Plan} (made : plan.MadeFor document) :
    List.Forall₂ Plan.IsConstantFor document.effectiveServers plan.serverConstants ∧
      (plan.serverConstants.map Prod.fst).Nodup ∧
      ∃ first servers name constants, document.effectiveServers = first :: servers ∧
        plan.serverConstants = (name, first.resolveUrl) :: constants ∧
        ∀ l, OffersServers l plan.serverConstants
          ((outline l plan).clients.map fun client ↦ client.2.name)
          (plan.clientUrl.elim ("Servers." ++ name) quote) (clientCode l plan) := by
  refine ⟨made.isConstantFor, made.nodup_constantNames, ?_⟩
  obtain ⟨first, servers, name, constants, hs, hc⟩ := made.exists_serverConstants_eq
  exact ⟨first, servers, name, constants, hs, hc, fun l ↦ offersServers l hc⟩

/-- A document with servers whose names are alike in capitals. -/
def mirrored : Document where
  openrpc := "1.3.2"
  info := { title := "Shop", version := "1" }
  methods := []
  servers := some [
    { name := "local dev"
      url := "http://localhost:\x7bport\x7d"
      urlVariables := some [("port", { default := "80" })] },
    { name := "local-dev", url := "http://127.0.0.1" }]

/-- Servers whose names are alike have constants of their own. -/
theorem clients_default_server_mirrored :
    ∃ plan, Plan.ofDocument mirrored = .ok plan ∧
      plan.serverConstants =
        [("LOCAL_DEV", "http://localhost:80"), ("LOCAL_DEV_2", "http://127.0.0.1")] ∧
      ∀ l, OffersServers l plan.serverConstants
        ((outline l plan).clients.map fun client ↦ client.2.name)
        (plan.clientUrl.elim "Servers.LOCAL_DEV" quote) (clientCode l plan) := by
  have hf : ((Plan.ofDocument mirrored).toOption.map Plan.serverConstants) =
      some [("LOCAL_DEV", "http://localhost:80"), ("LOCAL_DEV_2", "http://127.0.0.1")] := by
    decide +kernel
  obtain ⟨plan, hp, hc⟩ := exists_ok_of_map_toOption hf
  obtain ⟨-, -, first, servers, name, constants, -, he, ho⟩ := clients_default_server (.fresh hp)
  obtain ⟨rfl, -⟩ := Prod.mk.inj (List.cons.inj (hc.symm.trans he)).1
  exact ⟨plan, hp, hc, ho⟩

end Package

end RpcForge

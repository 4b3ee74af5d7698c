import RpcForge.Proofs.Package.ClientCode
import RpcForge.Proofs.Package.Paths

/-!
# Calls of methods

Every method of a document can be called through the generated clients, and in one way only. It has
one function in each class that is meant for it, the members of clients lead to these classes, and
the page of the package lists it under just the names that lead to the function.
-/

namespace RpcForge

open PythonClient (CallStyle)

/-- All generated classes. -/
def Outline.classes (o : Outline) : List ClassOutline :=
  o.groups ++ o.clients.map Prod.snd

namespace Package

open Outline (Chain)

/-- The page of a package. -/
def page : Language → Plan → Readme.Page
  | .python, plan => PythonPackage.page plan
  | .typeScript, plan => TypeScriptPackage.page plan

/-- The path of the file with the clients. -/
def clientPath : Language → Plan → List String
  | .python, plan => ["src", plan.packageName, "client.py"]
  | .typeScript, _ => ["src", "client.ts"]

/-- One unit of indentation in the file with the clients. -/
def clientIndentation : Language → String
  | .python => "    "
  | .typeScript => "  "

/-- The row for a method. -/
def rowFor (l : Language) (method : String) : Readme.Row where
  method := method
  path := (Group.segments method).map (memberName l)

/-- Every method of a document has its functions in the generated clients, and nothing else has. -/
structure Complete (l : Language) (document : Document) (plan : Plan) : Prop where
  /-- Methods have different names. -/
  methods_nodup : document.methodNames.Nodup
  /-- There is a client for each way of calling over each transport, in order. -/
  clients_eq : (outline l plan).clients.map (fun client ↦ (client.1, client.2.style)) =
    plan.transports.flatMap fun transport ↦ (styles l transport).map (transport, ·)
  /-- No two clients are for the same transport and way of calling. -/
  clients_nodup : ((outline l plan).clients.map fun client ↦ (client.1, client.2.style)).Nodup
  /-- Clients are for the methods that belong to no group. -/
  clients_path : ∀ client ∈ (outline l plan).clients, client.2.path = []
  /-- A group has a class for a way of calling if some client has that way and the name of some
  method leads through the group. -/
  groups_iff : ∀ style path,
    (∃ c ∈ (outline l plan).groups, c.style = style ∧ c.path = path) ↔
      path ≠ [] ∧ (∃ client ∈ (outline l plan).clients, client.2.style = style) ∧
      ∃ method ∈ document.methodNames, path <+: groupSegments method
  /-- No two classes are for the same group and way of calling. -/
  groups_nodup : ((outline l plan).groups.map fun c ↦ (c.style, c.path)).Nodup
  /-- A class has the functions for the methods of its group, in order. -/
  functions_eq : ∀ c ∈ (outline l plan).classes, c.functions =
    (document.methodNames.filter fun method ↦ groupSegments method = c.path).map (functionFor l)
  /-- A method has one function in every class of its group and none in any other class. -/
  once : ∀ c ∈ (outline l plan).classes, ∀ method ∈ document.methodNames,
    (c.functions.map FunctionOutline.method).count method =
      if groupSegments method = c.path then 1 else 0
  /-- From every client, members lead to the classes of groups for its way of calling, by the
  segments of their paths. -/
  reached : ∀ client ∈ (outline l plan).clients, ∀ c ∈ (outline l plan).groups,
    c.style = client.2.style → Chain (outline l plan).groups client.2 (c.path.map (memberName l)) c
  /-- They lead to nothing else, as long as names of classes are not ambiguous. -/
  reached_only : ((outline l plan).groups.map ClassOutline.name).Nodup →
    ∀ client ∈ (outline l plan).clients, ∀ names c,
      Chain (outline l plan).groups client.2 names c →
        c.style = client.2.style ∧ names = c.path.map (memberName l)
  /-- The page lists every method once, under names made from its segments, and nothing else. -/
  rows_perm : (page l plan).rows.Perm (document.methodNames.map (rowFor l))
  /-- The members that lead from a client to a function, and then its name, are what the page lists
  for the method that the function sends. -/
  documented : ∀ client ∈ (outline l plan).clients, ∀ c ∈ client.2 :: (outline l plan).groups,
    c.style = client.2.style → ∀ f ∈ c.functions,
      ∃ names, Chain (outline l plan).groups client.2 names c ∧
        (page l plan).rows.filter (·.method = f.method) = [⟨f.method, names ++ [f.name]⟩]
  /-- The source has these classes, members and functions, and each function sends its method. -/
  shown : Shows l (outline l plan) (clientCode l plan)
  /-- Source and page are what is written. -/
  written : ∀ files, Package.files l plan = .ok files →
    ⟨clientPath l plan, Code.render (clientIndentation l) (clientCode l plan)⟩ ∈ files ∧
      ⟨["README.md"], Code.render "" (Readme.pageCode (page l plan))⟩ ∈ files
  /-- The rows of the page stand at its end. -/
  listed : ∃ front, Readme.pageCode (page l plan) =
    front ++ (page l plan).rows.map fun row ↦ .line (Readme.rowText row)

/-! ## Clients -/

variable {l : Language} {plan : Plan}

private theorem nodup_styles (l : Language) (transport : Transport) :
    (styles l transport).Nodup := by
  cases l <;> cases transport <;> decide

private theorem map_clients (l : Language) (hr : plan.root.path = []) :
    (outline l plan).clients.map (fun client ↦ (client.1, client.2.style)) =
      plan.transports.flatMap fun transport ↦ (styles l transport).map (transport, ·) := by
  rw [clients_outline l hr, List.map_flatMap]
  congr 1
  funext transport
  rw [List.map_map]
  rfl

private theorem nodup_map_clients (l : Language) (hr : plan.root.path = [])
    (hd : plan.transports.Nodup) :
    ((outline l plan).clients.map fun client ↦ (client.1, client.2.style)).Nodup := by
  rw [map_clients l hr, List.nodup_flatMap]
  refine ⟨fun transport _ ↦ (nodup_styles l transport).map fun _ _ he ↦ (Prod.mk.inj he).2, ?_⟩
  apply hd.imp
  intro a b hab x ha hb
  obtain ⟨_, -, rfl⟩ := List.mem_map.mp ha
  obtain ⟨_, -, he⟩ := List.mem_map.mp hb
  exact hab (congrArg Prod.fst he).symm

/-- A client has what the class of the root would have. -/
private theorem exists_client_eq (hr : plan.root.path = []) {client : Transport × ClassOutline}
    (hm : client ∈ (outline l plan).clients) :
    ∃ name, client.2 = classOf l plan client.2.style plan.root name := by
  rw [clients_outline l hr] at hm
  obtain ⟨transport, -, hm⟩ := List.mem_flatMap.mp hm
  obtain ⟨style, -, rfl⟩ := List.mem_map.mp hm
  exact ⟨_, rfl⟩

private theorem path_client (hr : plan.root.path = []) {client : Transport × ClassOutline}
    (hm : client ∈ (outline l plan).clients) : client.2.path = [] := by
  obtain ⟨name, hc⟩ := exists_client_eq hr hm
  rw [hc]
  exact hr

/-! ## Files -/

/-- The rows of a page stand at its end. -/
private theorem exists_pageCode_eq (p : Readme.Page) : ∃ front : List Code, Readme.pageCode p =
    front ++ p.rows.map fun row ↦ Code.line (Readme.rowText row) := by
  rw [Readme.pageCode, Readme.tableCode]
  split
  · next hr =>
    rw [List.isEmpty_iff.mp hr, List.map_nil]
    exact ⟨_, rfl⟩
  · rw [← List.append_assoc]
    exact ⟨_, rfl⟩

/-- The source with the clients and the page are among the files of a package. -/
private theorem client_mem_files {files : List SourceFile} (h : Package.files l plan = .ok files) :
    ⟨clientPath l plan, Code.render (clientIndentation l) (clientCode l plan)⟩ ∈ files ∧
      ⟨["README.md"], Code.render "" (Readme.pageCode (page l plan))⟩ ∈ files := by
  rw [Package.files, map_eq_ok_iff] at h
  obtain ⟨clients, hc, rfl⟩ := h
  cases l with
  | python =>
    rw [clientFiles, PythonPackage.clientFiles, map_eq_ok_iff] at hc
    obtain ⟨_, -, rfl⟩ := hc
    constructor
    · exact List.mem_append_left _ (List.mem_append_left _ (.head _))
    · exact List.mem_append_right _ (.tail _ (.head _))
  | typeScript =>
    rw [clientFiles, TypeScriptPackage.clientFiles, map_eq_ok_iff] at hc
    obtain ⟨_, -, rfl⟩ := hc
    constructor
    · exact List.mem_append_left _ (List.mem_append_left _ (.head _))
    · exact List.mem_append_right _ (.tail _ (.tail _ (.tail _ (.tail _ (.head _)))))

/-! ## Methods -/

section

variable {document : Document} (made : plan.MadeFor document)
include made

/-- A class is for some listed group. -/
private theorem exists_class_eq {c : ClassOutline} (hm : c ∈ (outline l plan).classes) :
    ∃ style, ∃ group ∈ plan.root.descendants, ∃ name, c = classOf l plan style group name := by
  rcases List.mem_append.mp hm with hm | hm
  · obtain ⟨style, -, group, hg, -, rfl⟩ := (mem_groups_outline_iff c).mp hm
    exact ⟨style, group, hg, _, rfl⟩
  · obtain ⟨client, hc, rfl⟩ := List.mem_map.mp hm
    obtain ⟨name, hc⟩ := exists_client_eq (Group.path_root made.made.2) hc
    exact ⟨_, _, Group.mem_descendants_self _, name, hc⟩

/-- A class has the functions for the methods of its group. -/
private theorem functions_eq_of_mem {c : ClassOutline} (hm : c ∈ (outline l plan).classes) :
    c.functions =
      (document.methodNames.filter fun method ↦ groupSegments method = c.path).map
        (functionFor l) := by
  obtain ⟨style, group, hg, name, rfl⟩ := exists_class_eq made hm
  exact functions_classOf made hg name

/-- The methods that a class sends are those of its group. -/
private theorem map_method_functions {c : ClassOutline} (hm : c ∈ (outline l plan).classes) :
    c.functions.map FunctionOutline.method =
      document.methodNames.filter fun method ↦ groupSegments method = c.path := by
  rw [functions_eq_of_mem made hm, List.map_map]
  exact List.map_id _

/-- A class sends a method once if it is of its group, and otherwise not at all. -/
private theorem count_method {c : ClassOutline} (hm : c ∈ (outline l plan).classes)
    {method : String} (hd : method ∈ document.methodNames) :
    (c.functions.map FunctionOutline.method).count method =
      if groupSegments method = c.path then 1 else 0 := by
  rw [map_method_functions made hm]
  split
  · next hp =>
    exact List.count_eq_one_of_mem (made.nodup_methodNames.filter _)
      (List.mem_filter.mpr ⟨hd, decide_eq_true hp⟩)
  · next hp =>
    apply List.count_eq_zero.mpr
    intro hf
    exact hp (of_decide_eq_true (List.mem_filter.mp hf).2)

/-- The names of methods lead through the listed groups. -/
private theorem mem_paths_iff (path : List String) : path ∈ plan.root.descendants.map Group.path ↔
    path = [] ∨ ∃ method ∈ document.methodNames, path <+: groupSegments method := by
  rw [Group.mem_paths_iff made.made.2, ← made.names_eq]
  simp [groupSegments, Group.groupPath]

/-- Which groups have a class for which way of calling. -/
private theorem exists_group_iff (style : CallStyle) (path : List String) :
    (∃ c ∈ (outline l plan).groups, c.style = style ∧ c.path = path) ↔
      path ≠ [] ∧ (∃ client ∈ (outline l plan).clients, client.2.style = style) ∧
      ∃ method ∈ document.methodNames, path <+: groupSegments method := by
  rw [← mem_groupStyles_iff l made.transports_ne_nil]
  constructor
  · rintro ⟨c, hc, rfl, rfl⟩
    obtain ⟨style, hs, group, hg, hp, rfl⟩ := (mem_groups_outline_iff c).mp hc
    have hm := (mem_paths_iff made group.path).mp (List.mem_map_of_mem hg)
    exact ⟨hp, hs, hm.resolve_left hp⟩
  · rintro ⟨hp, hs, hm⟩
    obtain ⟨group, hg, rfl⟩ := List.mem_map.mp ((mem_paths_iff made path).mpr (.inr hm))
    exact ⟨_, (mem_groups_outline_iff _).mpr ⟨style, hs, group, hg, hp, rfl⟩, rfl, rfl⟩

/-- No two classes are for the same group and way of calling. -/
private theorem nodup_groups : ((outline l plan).groups.map fun c ↦ (c.style, c.path)).Nodup := by
  have hp : (plan.groups.map Group.path).Nodup :=
    (Group.nodup_paths made.made.2).sublist (List.filter_sublist.map _)
  -- Classes are pairs of a way of calling and a group, and neither list has repetitions.
  have he : (outline l plan).groups.map (fun c ↦ (c.style, c.path)) =
      (groupStyles l plan).product (plan.groups.map Group.path) := by
    rw [groups_outline, List.map_flatMap, List.product]
    congr 1
    funext style
    rw [List.map_map, List.map_map]
    rfl
  rw [he]
  exact (nodup_groupStyles l plan).product hp

/-- From a client, members lead to the classes of all groups. -/
private theorem chain_of_mem {client : Transport × ClassOutline}
    (hm : client ∈ (outline l plan).clients) {c : ClassOutline} (hc : c ∈ (outline l plan).groups)
    (hs : c.style = client.2.style) :
    Chain (outline l plan).groups client.2 (c.path.map (memberName l)) c := by
  obtain ⟨style, hg, group, hd, hp, rfl⟩ := (mem_groups_outline_iff c).mp hc
  obtain ⟨name, he⟩ := exists_client_eq (Group.path_root made.made.2) hm
  obtain ⟨segment, steps, hp⟩ := List.exists_cons_of_ne_nil hp
  have hw := (Group.holds_of_ofOperations made.made.2).1.groupAt_path hd
  rw [he, ← hs]
  change Chain _ _ (group.path.map _) _
  rw [hp] at hw ⊢
  exact chain_of_groupAt? made hg (Group.mem_descendants_self _) hw name

/-- Where names of classes are not ambiguous, members lead from a client to nothing else. -/
private theorem eq_of_chain (hd : ((outline l plan).groups.map ClassOutline.name).Nodup)
    {client : Transport × ClassOutline} (hm : client ∈ (outline l plan).clients)
    {names : List String} {c : ClassOutline} (h : Chain (outline l plan).groups client.2 names c) :
    c.style = client.2.style ∧ names = c.path.map (memberName l) := by
  obtain ⟨name, he⟩ := exists_client_eq (Group.path_root made.made.2) hm
  have hs := (mem_groupStyles_iff l made.transports_ne_nil client.2.style).mpr ⟨client, hm, rfl⟩
  obtain ⟨hc, steps, rfl, hp⟩ :=
    exists_steps_of_chain made hd h hs (Group.mem_descendants_self _) he
  rw [Group.path_root made.made.2, List.nil_append] at hp
  exact ⟨hc, by rw [hp]⟩

/-! ## The page -/

omit made in
private theorem rows_page (l : Language) (plan : Plan) :
    (page l plan).rows = Readme.rows (memberName l) plan.root := by
  cases l <;> rfl

omit made in
/-- A row has the segments of the group and the name of the function. -/
private theorem rowFor_eq (l : Language) (method : String) : rowFor l method =
    ⟨method, (groupSegments method).map (memberName l) ++ [(functionFor l method).name]⟩ := by
  rw [rowFor, ← Group.groupPath_append_memberKey { name := method }, List.map_append]
  rfl

/-- The rows for a listed group have the segments of the methods as their paths. -/
private theorem groupRows_eq {group : Group} (hm : group ∈ plan.root.descendants) :
    Readme.groupRows (memberName l) group =
      (Entries.values group.operations).map fun operation ↦ rowFor l operation.name := by
  rw [Readme.groupRows, Entries.values, Group.operations_of_mem made.made.2 hm, List.map_map,
    List.map_map, List.map_map]
  apply List.map_congr_left
  intro operation ho
  obtain hp : Group.groupPath operation = group.path :=
    of_decide_eq_true (List.mem_filter.mp ho).2
  simp [rowFor, ← hp, ← Group.groupPath_append_memberKey]

/-- The page has a row for every method. -/
private theorem rows_perm : (page l plan).rows.Perm (document.methodNames.map (rowFor l)) := by
  have he : (page l plan).rows =
      (plan.root.descendants.flatMap fun group ↦ Entries.values group.operations).map
        fun operation ↦ rowFor l operation.name := by
    rw [rows_page, Readme.rows, List.map_flatMap]
    apply List.flatMap_congr
    intro group hm
    exact groupRows_eq made hm
  rw [he, ← made.names_eq, List.map_map]
  exact (Group.operations_perm made.made.2).map _

/-- The rows for the name of a method are the one of that method. -/
private theorem rows_filter {method : String} (hm : method ∈ document.methodNames) :
    (page l plan).rows.filter (·.method = method) = [rowFor l method] := by
  rw [← List.perm_singleton]
  -- Methods have different names, so of all rows in any order only one is left.
  apply ((rows_perm made).filter _).trans
  rw [List.filter_map]
  have hf : document.methodNames.filter
      ((fun row : Readme.Row ↦ decide (row.method = method)) ∘ rowFor l) = [method] := by
    change document.methodNames.filter (fun other ↦ decide (other = method)) = [method]
    rw [List.filter_eq, List.count_eq_one_of_mem made.nodup_methodNames hm]
    rfl
  rw [hf]
  exact .refl _

/-- The members that lead from a client to a function, and then its name, are in the row of the
method. -/
private theorem exists_chain_of_mem {client : Transport × ClassOutline}
    (hm : client ∈ (outline l plan).clients) {c : ClassOutline}
    (hc : c ∈ client.2 :: (outline l plan).groups) (hs : c.style = client.2.style)
    {f : FunctionOutline} (hf : f ∈ c.functions) :
    ∃ names, Chain (outline l plan).groups client.2 names c ∧
      (page l plan).rows.filter (·.method = f.method) = [⟨f.method, names ++ [f.name]⟩] := by
  have hall : c ∈ (outline l plan).classes := by
    rcases List.mem_cons.mp hc with rfl | hc
    · exact List.mem_append_right _ (List.mem_map_of_mem hm)
    · exact List.mem_append_left _ hc
  rw [functions_eq_of_mem made hall] at hf
  obtain ⟨method, hm', rfl⟩ := List.mem_map.mp hf
  obtain ⟨hd, hp⟩ := List.mem_filter.mp hm'
  refine ⟨c.path.map (memberName l), ?_, ?_⟩
  · rcases List.mem_cons.mp hc with rfl | hc
    · rw [path_client (Group.path_root made.made.2) hm]
      exact .nil _
    · exact chain_of_mem made hm hc hs
  · have hr := rows_filter (l := l) made hd
    rw [rowFor_eq] at hr
    rw [← of_decide_eq_true hp]
    exact hr

end

/-- For a plan that is made for a document, with transports of which none comes twice, the generated
clients have every method where it should be, and the page of the package says where. -/
theorem calls_complete {document : Document} {plan : Plan} (made : plan.MadeFor document)
    (distinct : plan.transports.Nodup) (l : Language) : Complete l document plan := by
  have hr := Group.path_root made.made.2
  constructor
  case methods_nodup => exact made.nodup_methodNames
  case clients_eq => exact map_clients l hr
  case clients_nodup => exact nodup_map_clients l hr distinct
  case clients_path => exact fun client hm ↦ path_client hr hm
  case groups_iff => exact exists_group_iff made
  case groups_nodup => exact nodup_groups made
  case functions_eq => exact fun c hm ↦ functions_eq_of_mem made hm
  case once => exact fun c hm method hd ↦ count_method made hm hd
  case reached => exact fun client hm c hc hs ↦ chain_of_mem made hm hc hs
  case reached_only => exact fun hd client hm names c h ↦ eq_of_chain made hd hm h
  case rows_perm => exact rows_perm made
  case documented => exact fun client hm c hc hs f hf ↦ exists_chain_of_mem made hm hc hs hf
  case shown => exact shows_clientCode l plan
  case written => exact fun files h ↦ client_mem_files h
  case listed => exact exists_pageCode_eq (page l plan)

/-- A document with methods at different depths. -/
def nested : Document where
  openrpc := "1.3.2"
  info := { title := "Nested", version := "1" }
  methods := ["ping", "files.meta.read_all", "files.open"].map fun name ↦
    .inline { name := name, params := [] }

/-- With both transports, each of the two groups has two classes in Python. -/
theorem calls_complete_nested :
    ∃ plan, Plan.ofDocument nested = .ok plan ∧
      Complete .python nested (plan.withTransports [.http, .ws]) ∧
      (outline .python (plan.withTransports [.http, .ws])).groups.map ClassOutline.name =
        ["NestedFilesMethods", "NestedFilesMetaMethods", "NestedFilesAsyncMethods",
          "NestedFilesMetaAsyncMethods"] ∧
      (page .python (plan.withTransports [.http, .ws])).rows.map Readme.rowText =
        ["| `ping` | `client.ping(...)` |", "| `files.open` | `client.files.open(...)` |",
          "| `files.meta.read_all` | `client.files.meta.read_all(...)` |"] := by
  have hf : ((Plan.ofDocument nested).toOption.map fun plan ↦
      ((outline .python (plan.withTransports [.http, .ws])).groups.map ClassOutline.name,
        (page .python (plan.withTransports [.http, .ws])).rows.map Readme.rowText)) =
      some (["NestedFilesMethods", "NestedFilesMetaMethods", "NestedFilesAsyncMethods",
          "NestedFilesMetaAsyncMethods"],
        ["| `ping` | `client.ping(...)` |", "| `files.open` | `client.files.open(...)` |",
          "| `files.meta.read_all` | `client.files.meta.read_all(...)` |"]) := by decide +kernel
  cases hp : Plan.ofDocument nested with
  | error e =>
    rw [hp] at hf
    cases hf
  | ok plan =>
    rw [hp] at hf
    obtain ⟨hg, hr⟩ := Prod.mk.inj (Option.some.inj hf)
    refine ⟨plan, rfl, calls_complete (.transports (.fresh hp) _) ?_ _, hg, hr⟩
    change [Transport.http, .ws].Nodup
    decide

end Package

end RpcForge

import RpcForge.Proofs.Client.Plan
import RpcForge.Proofs.Package.Acceptance

/-!
# Outlines of generated clients

What the classes of a generated source offer, whatever the language: which objects of other classes
they hold, and which functions send which method. A function is reached from a client by a chain of
members, each of which holds an object of the next class.
-/

namespace RpcForge

open PythonClient (CallStyle)

/-- A function of a generated class. -/
structure FunctionOutline where
  /-- The name. -/
  name : String
  /-- The method that is sent. -/
  method : String
deriving DecidableEq, Repr

/-- A generated class. -/
structure ClassOutline where
  /-- The name. -/
  name : String
  /-- Whether its calls block. -/
  style : CallStyle
  /-- The path of the group that it is for; a client is for the root. -/
  path : List String
  /-- The members for the groups below. -/
  members : List SubgroupMember
  /-- The functions that send a method. -/
  functions : List FunctionOutline
deriving DecidableEq, Repr

/-- The generated classes. -/
structure Outline where
  /-- The classes of groups. -/
  groups : List ClassOutline
  /-- The clients, each with its transport. -/
  clients : List (Transport × ClassOutline)

/-- A chain of members leads from an object of one class to an object of another. Each member holds
an object of the class of a group that has the name it is assigned with. -/
inductive Outline.Chain (groups : List ClassOutline) :
    ClassOutline → List String → ClassOutline → Prop
  /-- No member is needed to stay. -/
  | nil (c : ClassOutline) : Chain groups c [] c
  /-- A member leads to the next class, and the others lead on from there. -/
  | cons {c next last : ClassOutline} {member : SubgroupMember} {names : List String}
      (held : member ∈ c.members) (known : next ∈ groups) (name_eq : next.name = member.className)
      (rest : Chain groups next names last) : Chain groups c (member.name :: names) last

/-! ## Outlines of a plan -/

/-- The outline of the class of a group in Python. -/
def PythonClient.GroupClass.outline (c : PythonClient.GroupClass) : ClassOutline where
  name := c.name
  style := c.style
  path := c.path
  members := c.subgroups
  functions := c.defs.map fun d ↦ ⟨d.name, d.method⟩

/-- The outline of a client in Python. -/
def PythonClient.ClientClass.outline (c : PythonClient.ClientClass) : ClassOutline where
  name := c.name
  style := c.style
  path := []
  members := c.subgroups
  functions := c.defs.map fun d ↦ ⟨d.name, d.method⟩

/-- The outline of the class of a group in TypeScript, where every call is awaited. -/
def TypeScriptClient.GroupClass.outline (c : TypeScriptClient.GroupClass) : ClassOutline where
  name := c.name
  style := .awaited
  path := c.path
  members := c.subgroups
  functions := c.methods.map fun m ↦ ⟨m.name, m.method⟩

/-- The outline of a client in TypeScript. -/
def TypeScriptClient.ClientClass.outline (c : TypeScriptClient.ClientClass) : ClassOutline where
  name := c.name
  style := .awaited
  path := []
  members := c.subgroups
  functions := c.methods.map fun m ↦ ⟨m.name, m.method⟩

namespace Package

open Outline (Chain)

/-- The outline of the clients for a plan. -/
def outline : Language → Plan → Outline
  | .python, plan =>
    { groups := (PythonClient.moduleOf plan).groupClasses.map PythonClient.GroupClass.outline
      clients := (PythonClient.moduleOf plan).clients.map fun c ↦ (c.transport, c.outline) }
  | .typeScript, plan =>
    { groups :=
        (TypeScriptClient.sourceOf plan).groupClasses.map TypeScriptClient.GroupClass.outline
      clients := (TypeScriptClient.sourceOf plan).clients.map fun c ↦ (c.transport, c.outline) }

/-- The ways of calling that there is a client for over a transport. -/
def styles : Language → Transport → List CallStyle
  | .python, .http => [.blocking, .awaited]
  | .python, .ws => [.awaited]
  | .typeScript, _ => [.awaited]

/-- The ways of calling that groups have a class for. -/
def groupStyles : Language → Plan → List CallStyle
  | .python, plan => PythonClient.stylesOf plan
  | .typeScript, _ => [.awaited]

/-- The name of the class of a group. -/
def groupClassName : Language → Plan → CallStyle → Group → String
  | .python, plan, style, group => PythonClient.groupClassName plan style group
  | .typeScript, plan, _, group => TypeScriptClient.groupClassName plan group

/-- The name of a client. -/
def clientClassName (l : Language) (plan : Plan) (transport : Transport) (style : CallStyle) :
    String :=
  plan.clientName ++
    (match l, transport, style with
      | .python, .http, .awaited => "AsyncHTTP"
      | _, transport, _ => transport.classSuffix) ++
    "Client"

/-- The outline of a class with a name for a group. -/
def classOf (l : Language) (plan : Plan) (style : CallStyle) (group : Group) (name : String) :
    ClassOutline where
  name := name
  style := style
  path := group.path
  members := (Entries.values group.groups).map fun inner ↦
    ⟨memberName l inner.name, groupClassName l plan style inner⟩
  functions := group.operations.map fun (key, operation) ↦ ⟨memberName l key, operation.name⟩

/-- The outline of the class of a group. -/
def groupClassOf (l : Language) (plan : Plan) (style : CallStyle) (group : Group) : ClassOutline :=
  classOf l plan style group (groupClassName l plan style group)

variable {l : Language} {plan : Plan} {style : CallStyle}

/-- The segments of the group that a method belongs to. -/
def groupSegments (method : String) : List String :=
  (Group.segments method).dropLast

/-- The function for a method. -/
def functionFor (l : Language) (method : String) : FunctionOutline where
  name := memberName l ((Group.segments method).getLast?.getD Naming.placeholder)
  method := method

/-! ## Declared classes -/

private theorem outline_groupClassOf_python (plan : Plan) (style : CallStyle) (group : Group) :
    (PythonClient.groupClassOf plan style group).outline =
      groupClassOf .python plan style group := by
  simp [PythonClient.GroupClass.outline, PythonClient.groupClassOf, PythonClient.subgroupsOf,
    PythonClient.defsOf, PythonClient.defOf, groupClassOf, classOf, groupClassName, memberName]

private theorem outline_groupClassOf_typeScript (plan : Plan) (group : Group) :
    (TypeScriptClient.groupClassOf plan group).outline =
      groupClassOf .typeScript plan .awaited group := by
  simp [TypeScriptClient.GroupClass.outline, TypeScriptClient.groupClassOf,
    TypeScriptClient.subgroupsOf, TypeScriptClient.methodsOf, TypeScriptClient.methodOf,
    groupClassOf, classOf, groupClassName, memberName]

/-- Each group has a class for each way of calling. -/
theorem groups_outline (l : Language) (plan : Plan) :
    (outline l plan).groups =
      (groupStyles l plan).flatMap fun style ↦ plan.groups.map (groupClassOf l plan style) := by
  cases l with
  | python =>
    simp only [outline, PythonClient.moduleOf, List.map_flatMap, List.map_map, Function.comp_def,
      outline_groupClassOf_python, groupStyles]
  | typeScript =>
    simp only [outline, TypeScriptClient.sourceOf, List.map_map, Function.comp_def,
      outline_groupClassOf_typeScript, groupStyles, List.flatMap_singleton]

/-- The clients come transport by transport, with one for each way of calling. Each has what the
class of the root would have. -/
theorem clients_outline (l : Language) (hr : plan.root.path = []) :
    (outline l plan).clients = plan.transports.flatMap fun transport ↦
      (styles l transport).map fun style ↦
        (transport, classOf l plan style plan.root (clientClassName l plan transport style)) := by
  cases l with
  | python =>
    simp only [outline, PythonClient.moduleOf, PythonClient.clientsOf, List.map_flatMap]
    congr 1
    funext transport
    cases transport <;>
      simp [PythonClient.clientsFor, PythonClient.clientForms, styles, clientClassName,
        PythonClient.ClientClass.outline, classOf, hr, PythonClient.subgroupsOf, groupClassName,
        PythonClient.defsOf, PythonClient.defOf, memberName, Transport.classSuffix]
  | typeScript =>
    simp only [outline, TypeScriptClient.sourceOf, styles, List.map_cons, List.map_nil,
      List.map_map, ← List.map_eq_flatMap]
    apply List.map_congr_left
    intro transport _
    simp [TypeScriptClient.ClientClass.outline, TypeScriptClient.clientOf, classOf, hr,
      TypeScriptClient.subgroupsOf, groupClassName, TypeScriptClient.methodsOf,
      TypeScriptClient.methodOf, memberName, clientClassName, TypeScriptClient.clientClassName]

/-- Groups have a class for a way of calling if some client has it. -/
theorem mem_groupStyles_iff (l : Language) (ht : plan.transports ≠ []) (style : CallStyle) :
    style ∈ groupStyles l plan ↔ ∃ client ∈ (outline l plan).clients, client.2.style = style := by
  cases l with
  | python =>
    have ha : style ∈ CallStyle.all := by cases style <;> decide
    simp [groupStyles, PythonClient.stylesOf, ha, outline, PythonClient.moduleOf,
      PythonClient.ClientClass.outline]
  | typeScript =>
    obtain ⟨transport, hm⟩ := List.exists_mem_of_ne_nil _ ht
    simp only [groupStyles, List.mem_singleton, outline, TypeScriptClient.sourceOf, List.map_map,
      List.mem_map]
    constructor
    · rintro rfl
      exact ⟨_, ⟨transport, hm, rfl⟩, rfl⟩
    · rintro ⟨_, ⟨_, -, rfl⟩, rfl⟩
      rfl

theorem nodup_groupStyles (l : Language) (plan : Plan) : (groupStyles l plan).Nodup := by
  cases l with
  | python => exact List.Nodup.filter _ (by decide)
  | typeScript => exact List.nodup_singleton _

/-! ## Groups of a plan -/

/-- The classes of groups are those of all groups but the root, in all ways of calling. -/
theorem mem_groups_outline_iff (c : ClassOutline) :
    c ∈ (outline l plan).groups ↔ ∃ style ∈ groupStyles l plan, ∃ group ∈ plan.root.descendants,
      group.path ≠ [] ∧ c = groupClassOf l plan style group := by
  have hg (group : Group) :
      group ∈ plan.groups ↔ group ∈ plan.root.descendants ∧ group.path ≠ [] := by
    simp [Plan.groups, Group.isRoot]
  simp only [groups_outline, List.mem_flatMap, List.mem_map, hg, and_assoc, eq_comm]

section

variable {document : Document} (made : plan.MadeFor document) {group : Group}
include made

/-- The class of a group has a function for each method that belongs to it, in order. -/
theorem functions_classOf (hm : group ∈ plan.root.descendants) (name : String) :
    (classOf l plan style group name).functions =
      (document.methodNames.filter fun method ↦ groupSegments method = group.path).map
        (functionFor l) := by
  rw [classOf, Group.operations_of_mem made.made.2 hm, ← made.names_eq, List.filter_map,
    List.map_map, List.map_map]
  rfl

/-- The member for a group in a group has an object of its class in the same way of calling. -/
private theorem member_mem_classOf (hm : group ∈ plan.root.descendants) {key : String}
    {inner : Group} (hi : (key, inner) ∈ group.groups) (style : CallStyle) (name : String) :
    ⟨memberName l key, groupClassName l plan style inner⟩ ∈
      (classOf l plan style group name).members := by
  obtain ⟨rfl, -⟩ := Group.inner_of_mem made.made.2 hm hi
  exact List.mem_map.mpr ⟨inner, List.mem_map_of_mem hi, rfl⟩

/-- A group in a group has a class for each way of calling. -/
private theorem groupClassOf_mem (hm : group ∈ plan.root.descendants) {key : String} {inner : Group}
    (hi : (key, inner) ∈ group.groups) (hs : style ∈ groupStyles l plan) :
    groupClassOf l plan style inner ∈ (outline l plan).groups := by
  refine (mem_groups_outline_iff _).mpr
    ⟨style, hs, inner, Group.inner_mem made.made.2 hm hi, ?_, rfl⟩
  rw [(Group.inner_of_mem made.made.2 hm hi).2]
  exact List.append_ne_nil_of_right_ne_nil _ (List.cons_ne_nil _ _)

/-- Where segments lead from one group to another, the members named after them lead from the class
of the one to the class of the other. -/
theorem chain_of_groupAt? (hs : style ∈ groupStyles l plan) (hm : group ∈ plan.root.descendants)
    {segment : String} {steps : List String} {below : Group}
    (hb : group.groupAt? (segment :: steps) = some below) (name : String) :
    Chain (outline l plan).groups (classOf l plan style group name)
      ((segment :: steps).map (memberName l)) (groupClassOf l plan style below) := by
  induction steps generalizing group segment name with
  | nil =>
    obtain ⟨inner, hg, hb⟩ := Option.bind_eq_some_iff.mp hb
    obtain rfl := Option.some.inj hb
    have hi := Entries.mem_of_get? hg
    exact .cons (member_mem_classOf made hm hi style name) (groupClassOf_mem made hm hi hs) rfl
      (.nil _)
  | cons next steps ih =>
    obtain ⟨inner, hg, hb⟩ := Option.bind_eq_some_iff.mp hb
    have hi := Entries.mem_of_get? hg
    exact .cons (member_mem_classOf made hm hi style name) (groupClassOf_mem made hm hi hs) rfl
      (ih (Group.inner_mem made.made.2 hm hi) hb _)

/-- Where no two classes of groups have the same name, members lead to no other classes than those
that segments of the same names lead to. -/
theorem exists_steps_of_chain (hd : ((outline l plan).groups.map ClassOutline.name).Nodup)
    {c last : ClassOutline} {names : List String}
    (h : Chain (outline l plan).groups c names last) (hs : style ∈ groupStyles l plan)
    (hm : group ∈ plan.root.descendants) {name : String}
    (hc : c = classOf l plan style group name) :
    last.style = style ∧
      ∃ steps, names = steps.map (memberName l) ∧ last.path = group.path ++ steps := by
  induction h generalizing group name with
  | nil c =>
    subst hc
    exact ⟨rfl, [], rfl, (List.append_nil _).symm⟩
  | @cons c next last member names held known name_eq rest ih =>
    subst hc
    obtain ⟨inner, hv, rfl⟩ := List.mem_map.mp held
    obtain ⟨⟨key, inner⟩, hi, rfl⟩ := List.mem_map.mp hv
    obtain ⟨hk, hp⟩ := Group.inner_of_mem made.made.2 hm hi
    -- The name of the next class is that of the class of the inner group, so it is this class.
    have hn : next = groupClassOf l plan style _ :=
      List.inj_on_of_nodup_map hd known (groupClassOf_mem made hm hi hs) name_eq
    obtain ⟨he, steps, rfl, hl⟩ := ih (Group.inner_mem made.made.2 hm hi) hn
    refine ⟨he, key :: steps, ?_, ?_⟩
    · rw [List.map_cons, ← hk]
    · rw [hl, hp, List.append_assoc, List.singleton_append]

end

end Package

end RpcForge

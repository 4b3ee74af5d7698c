import RpcForge.Proofs.Naming.Identifier
import RpcForge.Proofs.Package.ClientCode
import RpcForge.Proofs.Package.ModuleNames
import RpcForge.Proofs.Text.Parts

/-!
# Members of groups in Python

An object of the class of a group keeps the function that sends requests in an attribute of its own,
whose name begins with an underscore. The members for operations and for groups below are named
after segments of methods. Segments are sanitized before they are put into a casing, so that no word
of them is lost, and no name begins with an underscore or has two of them in a row.
-/

namespace RpcForge

namespace Naming

open RpcForge.Text

/-- What a name in Python is like that does not begin with an underscore, has no two of them in a
row, and ends with one only where a reserved word or the name of the object itself is avoided. -/
structure IsMemberName (name : String) : Prop where
  /-- No underscore comes first. -/
  start : startsWith name "_" = false
  /-- No two underscores come one after the other. -/
  inner : hasPart name "__" = false
  /-- An underscore that comes last is there to avoid a word. -/
  ending : name.toList.getLast? = some '_' ↔
    (∃ word ∈ pythonKeywords, name = word ++ "_") ∨ name = "self_"

/-- Segments are made names of members. -/
private theorem isMemberName_pythonIdentifier_sanitize (segment : String) :
    IsMemberName (pythonIdentifier (sanitize segment)) := by
  have hs : snake (sanitize segment) ≠ "" := by
    obtain ⟨c, cs, hc, -⟩ := isIdentifier_cased joinSnake (sanitize segment)
    exact fun he ↦ List.cons_ne_nil c cs (hc.symm.trans (String.toList_eq_nil_iff.mpr he))
  obtain ⟨hh, hi, hl⟩ := avoid_underscores pythonAvoided hs
    (tight_snake (isAscii_sanitize segment))
  rw [← pythonIdentifier_eq] at hh hi hl
  constructor
  case start =>
    rw [Bool.eq_false_iff, ne_eq, startsWith_iff]
    rintro ⟨rest, he⟩
    exact hh (by rw [← he]; rfl)
  case inner =>
    rw [Bool.eq_false_iff, ne_eq, hasPart_iff]
    exact hi
  case ending =>
    constructor
    · intro he
      have hm := hl he
      rw [pythonIdentifier_eq, avoid_of_mem hm]
      rcases List.mem_append.mp hm with hk | hb
      · exact .inl ⟨_, hk, rfl⟩
      · rw [List.mem_singleton.mp hb]
        exact .inr rfl
    · rintro (⟨word, -, he⟩ | he)
      · simp [he]
      · rw [he]
        rfl

end Naming

namespace Group

variable {name : String} {operations : List Operation} {root group : Group}

/-- The members of a listed group are named by segments of names of operations. -/
private theorem mem_segments_of_mem_memberNames (h : ofOperations name operations = .ok root)
    (hm : group ∈ root.descendants) {key : String} (hk : key ∈ group.memberNames) :
    ∃ operation ∈ operations, key ∈ segments operation.name := by
  rw [memberNames_of_mem h hm, List.mem_append, List.mem_eraseDups, List.mem_filterMap,
    List.mem_map] at hk
  rcases hk with ⟨operation, ho, hs⟩ | ⟨operation, ho, rfl⟩
  · rw [segmentBelow?, Option.ite_none_right_eq_some] at hs
    exact ⟨operation, ho, List.mem_of_mem_dropLast (List.mem_of_getElem? hs.2)⟩
  · refine ⟨operation, (List.mem_filter.mp ho).1, ?_⟩
    rw [← groupPath_append_memberKey]
    exact List.mem_append_right _ (.head _)

end Group

namespace PythonClient

open Package

/-- The names of the attributes that an object of the class of a group has for what is in the
group. -/
def GroupClass.attributes (c : GroupClass) : List String :=
  c.subgroups.map SubgroupMember.name ++ c.defs.map Def.name

/-- A class has an attribute for each member of its group. -/
private theorem attributes_groupClassOf {document : Document} {plan : Plan}
    (made : plan.MadeFor document) {group : Group} (hm : group ∈ plan.root.descendants)
    (style : CallStyle) :
    (groupClassOf plan style group).attributes =
      group.memberNames.map Naming.pythonIdentifier := by
  have hs : (subgroupsOf plan style group).map SubgroupMember.name =
      (Entries.keys group.groups).map Naming.pythonIdentifier := by
    rw [subgroupsOf, Entries.values, Entries.keys, List.map_map, List.map_map, List.map_map]
    apply List.map_congr_left
    intro entry he
    simp only [Function.comp_apply, (Group.inner_of_mem made.made.2 hm he).1]
  have hd : (defsOf group).map Def.name =
      (Entries.keys group.operations).map Naming.pythonIdentifier := by
    rw [defsOf, Entries.keys, List.map_map, List.map_map]
    apply List.map_congr_left
    intro entry he
    simp only [Function.comp_apply, defOf]
  rw [Group.memberNames, List.map_append, ← hs, ← hd, GroupClass.attributes, groupClassOf]

/-- No segment becomes a name that begins with an underscore, has two of them in a row, or ends with
one but to avoid a word. The attributes for what is in a group are named after segments of methods,
and so none of them takes the place of the one that the function that sends requests is kept in. -/
theorem groupMembers_keep_call {document : Document} {plan : Plan} (made : plan.MadeFor document) :
    (∀ segment : String, Naming.IsMemberName (Naming.pythonIdentifier (Naming.sanitize segment))) ∧
    ∀ c ∈ (moduleOf plan).groupClasses,
      (∃ block, Code.blocks (groupClassCode c) = [block] ∧
        ShowsClass .python false c.outline block) ∧
      ∀ name ∈ c.attributes, name ≠ "_call" ∧
        ∃ method ∈ document.methodNames, ∃ segment ∈ Text.pieces '.' method,
          name = Naming.pythonIdentifier (Naming.sanitize segment) := by
  refine ⟨Naming.isMemberName_pythonIdentifier_sanitize, fun c hc ↦
    ⟨showsClass_group c, fun name hn ↦ ?_⟩⟩
  obtain ⟨style, -, hc⟩ := List.mem_flatMap.mp hc
  obtain ⟨group, hg, rfl⟩ := List.mem_map.mp hc
  have hm : group ∈ plan.root.descendants := (List.mem_filter.mp hg).1
  rw [attributes_groupClassOf made hm] at hn
  obtain ⟨key, hk, rfl⟩ := List.mem_map.mp hn
  obtain ⟨operation, ho, hs⟩ := Group.mem_segments_of_mem_memberNames made.made.2 hm hk
  obtain ⟨segment, hp, rfl⟩ := List.mem_map.mp hs
  refine ⟨fun he ↦ ?_, operation.name, ?_, segment, hp, rfl⟩
  · have hu := (Naming.isMemberName_pythonIdentifier_sanitize segment).start
    rw [he] at hu
    exact absurd hu (by decide)
  · rw [← made.names_eq]
    exact List.mem_map_of_mem ho

/-- Segments with underscores around them, and a reserved word. -/
theorem groupMembers_keep_call_underscored :
    ∃ plan, Plan.ofDocument (plain ["x._call", "x.self", "x.__init__.from"]) = .ok plan ∧
      (moduleOf plan).groupClasses.map GroupClass.attributes =
        [["init", "call", "self_"], ["from_"], ["init", "call", "self_"], ["from_"]] ∧
      ∀ c ∈ (moduleOf plan).groupClasses, ∀ name ∈ c.attributes, name ≠ "_call" := by
  have hf : ((Plan.ofDocument (plain ["x._call", "x.self", "x.__init__.from"])).toOption.map
      fun plan ↦ (moduleOf plan).groupClasses.map GroupClass.attributes) =
      some [["init", "call", "self_"], ["from_"], ["init", "call", "self_"], ["from_"]] := by
    decide +kernel
  obtain ⟨plan, hp, ha⟩ := exists_ok_of_map_toOption hf
  refine ⟨plan, hp, ha, fun c hc name hn ↦ ?_⟩
  exact (((groupMembers_keep_call (.fresh hp)).2 c hc).2 name hn).1

end PythonClient

end RpcForge

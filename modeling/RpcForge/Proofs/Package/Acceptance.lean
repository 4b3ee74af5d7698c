import RpcForge.Package.Basic
import RpcForge.Proofs.Client.MemberNames

/-!
# When a package can be written

Nothing but the names of members keeps a package from being written. Each group becomes a class of
the target language, in which its groups and operations are members, and a client has members of its
own besides.
-/

namespace RpcForge.Package

open RpcForge.Group (Fit FirstMisfit misfit)

/-- The name of a member in a target language. -/
def memberName : Language → String → String
  | .python => Naming.pythonIdentifier
  | .typeScript => Naming.camel

/-- The members that the class of a group has by itself, which for the root is that of a client. -/
def ownMembers : Language → (isRoot : Bool) → List String
  | .python, true => ["call", "close", "connect", "headers", "url"]
  | .python, false => []
  | .typeScript, true => ["call", "close", "connect", "headers", "url", "constructor"]
  | .typeScript, false => ["rpc", "constructor"]

/-- The members of a group can stand in its class. -/
def Accepts (l : Language) (group : Group) : Prop :=
  Fit (memberName l) (ownMembers l group.isRoot) group.memberNames

/-- Only which names are reserved matters for what is said about a member. -/
private theorem misfit_congr {identifier : String → String} {reserved reserved' : List String}
    (h : ∀ name, name ∈ reserved ↔ name ∈ reserved') (group : Group) (key : String) :
    misfit identifier reserved group key = misfit identifier reserved' group key := by
  simp only [misfit, h]

/-- A member comes first in not fitting, whatever the order of what is reserved. -/
private theorem firstMisfit_congr {identifier : String → String} {reserved reserved' : List String}
    (h : ∀ name, name ∈ reserved ↔ name ∈ reserved') (keys : List String) (key : String) :
    FirstMisfit identifier reserved keys key ↔ FirstMisfit identifier reserved' keys key := by
  simp only [FirstMisfit, Group.fit_congr h, h]

/-- What is reserved in the packages of a language. -/
def reservedNames : Language → (isRoot : Bool) → List String
  | .python, true => PythonPackage.clientMembers
  | .python, false => []
  | .typeScript, true => TypeScriptPackage.clientMembers
  | .typeScript, false => TypeScriptPackage.groupMembers

/-- A class has by itself just what is reserved. -/
private theorem mem_reservedNames_iff (l : Language) (isRoot : Bool) (name : String) :
    name ∈ reservedNames l isRoot ↔ name ∈ ownMembers l isRoot := by
  cases l <;> cases isRoot <;> simp only [reservedNames, ownMembers,
    PythonPackage.clientMembers, TypeScriptPackage.clientMembers, TypeScriptPackage.groupMembers,
    List.mem_cons, List.not_mem_nil, or_false] <;> grind

/-- The check of one group before a package is written. -/
def checkGroup (l : Language) (group : Group) : Except GenerationError Unit :=
  group.checkMembers (memberName l) (reservedNames l group.isRoot)

/-- A group passes the check if its members can stand in its class. -/
theorem checkGroup_eq_ok_iff (l : Language) (group : Group) :
    checkGroup l group = .ok () ↔ Accepts l group := by
  rw [checkGroup, Group.checkMembers_eq_ok_iff, Accepts]
  exact Group.fit_congr (mem_reservedNames_iff l group.isRoot) _

/-- A group fails the check at its first member that does not fit. -/
theorem checkGroup_eq_error_iff (l : Language) (group : Group) (e : GenerationError) :
    checkGroup l group = .error e ↔
      ∃ key, FirstMisfit (memberName l) (ownMembers l group.isRoot) group.memberNames key ∧
        e = misfit (memberName l) (ownMembers l group.isRoot) group key := by
  have h := mem_reservedNames_iff l group.isRoot
  simp only [checkGroup, Group.checkMembers_eq_error_iff, firstMisfit_congr h, misfit_congr h]

/-- Once every group has passed the check, nothing fails. -/
theorem files_eq (l : Language) (plan : Plan) :
    ∃ written : List SourceFile,
      files l plan = (plan.root.descendants.forM (checkGroup l)).map fun _ ↦ written := by
  cases l with
  | python =>
    have hc : plan.root.checkTree Naming.pythonIdentifier PythonPackage.clientMembers [] =
        plan.root.descendants.forM (checkGroup .python) := by
      rw [Group.checkTree]
      congr 1
      funext group
      cases hr : group.isRoot <;> simp [checkGroup, memberName, reservedNames, hr]
    simp only [files, clientFiles, PythonPackage.clientFiles, hc]
    cases plan.root.descendants.forM (checkGroup .python) with
    | error e => exact ⟨[], rfl⟩
    | ok _ => exact ⟨_, rfl⟩
  | typeScript =>
    have hc : plan.root.checkTree Naming.camel TypeScriptPackage.clientMembers
        TypeScriptPackage.groupMembers = plan.root.descendants.forM (checkGroup .typeScript) := by
      rw [Group.checkTree]
      congr 1
      funext group
      cases hr : group.isRoot <;> simp [checkGroup, memberName, reservedNames, hr]
    simp only [files, clientFiles, TypeScriptPackage.clientFiles, hc]
    cases plan.root.descendants.forM (checkGroup .typeScript) with
    | error e => exact ⟨[], rfl⟩
    | ok _ => exact ⟨_, rfl⟩

/-- A package can be written if the members of every group can stand in its class. Otherwise it
fails in the first group, in the order of the tree, where they cannot, at the first of its members
that does not fit, its groups before its operations. -/
theorem files_outcome (l : Language) (plan : Plan) :
    ((∃ written, files l plan = .ok written) ↔
      ∀ group ∈ plan.root.descendants, Accepts l group) ∧
    ∀ e, files l plan = .error e ↔
      ∃ before group after key, plan.root.descendants = before ++ group :: after ∧
        (∀ earlier ∈ before, Accepts l earlier) ∧
        FirstMisfit (memberName l) (ownMembers l group.isRoot) group.memberNames key ∧
        e = misfit (memberName l) (ownMembers l group.isRoot) group key := by
  obtain ⟨written, hw⟩ := files_eq l plan
  rw [hw]
  constructor
  · simp only [map_eq_ok_iff, ← checkGroup_eq_ok_iff]
    rw [← forM_eq_ok_iff]
    constructor
    · rintro ⟨_, ⟨⟩, h, -⟩
      exact h
    · intro h
      exact ⟨written, (), h, rfl⟩
  · intro e
    simp only [map_eq_error_iff, forM_eq_error_iff, checkGroup_eq_ok_iff, checkGroup_eq_error_iff]
    constructor
    · rintro ⟨before, group, after, hd, hb, key, hk, he⟩
      exact ⟨before, group, after, key, hd, hb, hk, he⟩
    · rintro ⟨before, group, after, key, hd, hb, hk, he⟩
      exact ⟨before, group, after, hd, hb, key, hk, he⟩

end RpcForge.Package

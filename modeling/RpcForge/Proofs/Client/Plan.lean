import RpcForge.Client.Plan
import RpcForge.Proofs.Except
import RpcForge.Proofs.Group.Listing
import RpcForge.Proofs.Interface.Acceptance
import RpcForge.Proofs.Interface.Definitions

/-!
# Plans for a document

A plan is made for a document, and after that only its transports and its address are chosen. None
of these choices touches the operations or the tree that they are in.
-/

namespace RpcForge

/-- The names of the methods of a document, in order. -/
def Document.methodNames (document : Document) : List String :=
  document.methods.map MethodOrReference.key

namespace Plan

/-- Plans for a document, with whatever choices were made. -/
inductive MadeFor (document : Document) : Plan → Prop
  /-- No choice was made. -/
  | fresh {plan : Plan} (made : ofDocument document = .ok plan) : MadeFor document plan
  /-- The transports were chosen. -/
  | transports {plan : Plan} (before : MadeFor document plan) (transports : List Transport) :
      MadeFor document (plan.withTransports transports)
  /-- The address was chosen. -/
  | clientUrl {plan : Plan} (before : MadeFor document plan) (url : String) :
      MadeFor document (plan.withClientUrl url)

variable (plan : Plan)

@[simp] theorem interface_withTransports (transports : List Transport) :
    (plan.withTransports transports).interface = plan.interface := by
  unfold withTransports
  split <;> rfl

@[simp] theorem root_withTransports (transports : List Transport) :
    (plan.withTransports transports).root = plan.root := by
  unfold withTransports
  split <;> rfl

@[simp] theorem interface_withClientUrl (url : String) :
    (plan.withClientUrl url).interface = plan.interface := rfl

@[simp] theorem root_withClientUrl (url : String) :
    (plan.withClientUrl url).root = plan.root := rfl

variable {document : Document} {plan : Plan}

/-- A document has a plan if it describes an interface whose operations form a tree. -/
theorem ofDocument_eq_ok_iff : ofDocument document = .ok plan ↔ ∃ interface root,
    Interface.ofDocument document = .ok interface ∧
      Group.ofOperations (nameOf interface) interface.operations = .ok root ∧
      plan = { interface := interface, root := root } := by
  change (Interface.ofDocument document >>= ofInterface) = .ok plan ↔ _
  simp only [bind_eq_ok_iff, ofInterface, map_eq_ok_iff]
  constructor
  · rintro ⟨interface, hi, root, hr, rfl⟩
    exact ⟨interface, root, hi, hr, rfl⟩
  · rintro ⟨interface, root, hi, hr, rfl⟩
    exact ⟨interface, hi, root, hr, rfl⟩

/-- The interface of a plan is the one that the document describes, and its tree is made of the
operations of the interface. -/
theorem MadeFor.made (h : MadeFor document plan) :
    Interface.ofDocument document = .ok plan.interface ∧
      Group.ofOperations (nameOf plan.interface) plan.interface.operations = .ok plan.root := by
  induction h with
  | fresh made =>
    obtain ⟨interface, root, hi, hr, rfl⟩ := ofDocument_eq_ok_iff.mp made
    exact ⟨hi, hr⟩
  | transports _ choice ih => simpa using ih
  | clientUrl _ url ih => simpa using ih

/-- The models of a plan are those of the document. -/
private theorem MadeFor.models_eq (h : MadeFor document plan) :
    plan.interface.models = .ofComponents document.components := by
  obtain ⟨-, -, he, -⟩ := (Interface.ofDocument_eq_ok_iff _ _).mp h.made.1
  rw [he, Interface.withOperations]

/-- A plan has models exactly if the components of the document list a schema. -/
theorem MadeFor.hasModels_iff (h : MadeFor document plan) : plan.hasModels = true ↔
    ∃ components ∈ document.components, ∃ schemas ∈ components.schemas, schemas ≠ [] := by
  rw [hasModels, h.models_eq, Bool.not_eq_true', ← Bool.not_eq_true, document.isEmpty_models_iff]
  exact document.definitions_ne_nil_iff

/-- A document that is accepted has a plan, with the models of its components. -/
theorem exists_of_accepted
    (accepted : ((ofDocument document).toOption.map fun _ ↦ ()) = some ()) :
    ∃ plan, ofDocument document = .ok plan ∧
      plan.interface.models = .ofComponents document.components := by
  obtain ⟨plan, hp, -⟩ := exists_ok_of_map_toOption accepted
  exact ⟨plan, hp, (MadeFor.fresh hp).models_eq⟩

/-- A plan has some transport. -/
theorem MadeFor.transports_ne_nil (h : MadeFor document plan) : plan.transports ≠ [] := by
  induction h with
  | fresh made =>
    obtain ⟨interface, root, -, -, rfl⟩ := ofDocument_eq_ok_iff.mp made
    exact List.cons_ne_nil _ _
  | transports _ choice ih =>
    unfold withTransports
    split
    · exact ih
    · next hc => simpa using hc
  | clientUrl _ url ih => exact ih

/-- The operations of a plan have the names of the methods of the document, in order. -/
theorem MadeFor.names_eq (h : MadeFor document plan) :
    plan.interface.operations.map Operation.name = document.methodNames :=
  Interface.names_eq_of_described ((Interface.ofDocument_eq_ok_iff _ _).mp h.made.1).2.1

/-- The methods of a document that has a plan have different names. -/
theorem MadeFor.nodup_methodNames (h : MadeFor document plan) : document.methodNames.Nodup := by
  rw [← h.names_eq]
  exact Group.nodup_names h.made.2

/-- What holds of all listed groups holds of the root and of the groups below it. -/
theorem MadeFor.forall_descendants_iff (h : MadeFor document plan) {P : Group → Prop} :
    (∀ group ∈ plan.root.descendants, P group) ↔ P plan.root ∧ ∀ group ∈ plan.groups, P group := by
  have hroot := plan.root.mem_descendants_self
  constructor
  · exact fun hp ↦ ⟨hp _ hroot, fun group hg ↦ hp group (List.mem_filter.mp hg).1⟩
  · rintro ⟨hr, hp⟩ group hg
    by_cases hn : group.path = []
    · have he : group.path = plan.root.path := by rw [hn, Group.path_root h.made.2]
      rwa [List.inj_on_of_nodup_map (Group.nodup_paths h.made.2) hg hroot he]
    · exact hp group (List.mem_filter.mpr ⟨hg, by simpa [Group.isRoot] using hn⟩)

/-- What holds of all operations in the tree holds of all operations of the interface. -/
theorem MadeFor.forall_operations_iff (h : MadeFor document plan) {P : Operation → Prop} :
    (∀ group ∈ plan.root.descendants, ∀ entry ∈ group.operations, P entry.2) ↔
      ∀ operation ∈ plan.interface.operations, P operation := by
  have hm (operation : Operation) := (Group.operations_perm h.made.2).mem_iff (a := operation)
  simp only [← hm, List.forall_mem_flatMap, Entries.values, List.forall_mem_map]

end Plan

end RpcForge

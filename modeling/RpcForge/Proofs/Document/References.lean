import RpcForge.Document.Components
import RpcForge.Interface.Meaning
import RpcForge.Proofs.Document.Wellformed
import RpcForge.Proofs.Text.Pieces

/-!
# References to components

A reference to a component comes apart into the kind and the name that it was made from, and no
other reference does. Its name is what stands behind the last slash, whoever looks for it, and a
reference to a descriptor leads to the one that is kept under its name.
-/

namespace RpcForge

namespace Reference

/-- A reference points to a component exactly if its pointer is spelled that way. -/
private theorem pointsTo_iff (r : Reference) (kind name : String) :
    r.PointsTo kind name ↔ kind ≠ "" ∧ '/' ∉ kind.toList ∧ name ≠ "" ∧
      r.pointer = "#/components/" ++ kind ++ "/" ++ name := by
  obtain ⟨pointer⟩ := r
  rw [PointsTo, component, mk.injEq, componentStart]

/-- A reference to a component has its kind and its name, as long as they are not empty and the kind
goes up to the first slash. -/
private theorem componentParts?_component_iff (kind name : String) :
    (component kind name).componentParts? = some (kind, name) ↔
      kind ≠ "" ∧ '/' ∉ kind.toList ∧ name ≠ "" := by
  rw [componentParts?_eq_some_iff, PointsTo]
  simp only [and_true]

/-- The last segment of a pointer is what its meaning is named after. -/
private theorem target_eq_modelName (pointer : String) :
    (mk pointer).target = Meaning.modelName pointer := by
  rw [target, targetOf, Meaning.modelName, Text.getLast?_pieces, Option.getD_some]

end Reference

namespace Components

/-- A reference to a descriptor is looked up under the name that it was made from. -/
private theorem resolveDescriptor_descriptor (components : Components) {key : String}
    (h : key ≠ "") :
    components.resolveDescriptor (.descriptor key) =
      match Entries.get? (components.descriptors.getD []) key with
      | some descriptor => .ok descriptor
      | none => .error (.reference ("content descriptor '" ++ key ++ "' is not defined")
          (Reference.descriptor key).pointer) := by
  have hp : (Reference.descriptor key).componentParts? = some (Reference.descriptorKind, key) :=
    (Reference.componentParts?_component_iff _ _).mpr ⟨by decide, by decide, h⟩
  rw [resolveDescriptor, hp]
  exact if_pos rfl

/-- Components with a descriptor under a slashed name besides one under the last segment of it. -/
def paged : Components where
  descriptors := some [("size", { name := "size", schema := .flag true }),
    ("page/size", { name := "pageSize", schema := .flag false })]

/-- Kind and name of a reference to a component are those that it was made from, no other pointer
has them, and whoever asks for the name of what a pointer leads to gets the same one. The descriptor
that a reference was made for is the one that it is resolved to, and the reference is refused if
there is none. -/
theorem references_agree :
    (∀ kind name : String, (Reference.component kind name).componentParts? = some (kind, name) ↔
      kind ≠ "" ∧ '/' ∉ kind.toList ∧ name ≠ "") ∧
    (∀ (r : Reference) (kind name : String), r.componentParts? = some (kind, name) ↔
      kind ≠ "" ∧ '/' ∉ kind.toList ∧ name ≠ "" ∧
        r.pointer = "#/components/" ++ kind ++ "/" ++ name) ∧
    (∀ pointer : String, (Reference.mk pointer).target = Meaning.modelName pointer) ∧
    ∀ (components : Components) (key : String), key ≠ "" →
      (∀ descriptor : Descriptor,
        components.resolveDescriptor (.descriptor key) = .ok descriptor ↔
          Entries.get? (components.descriptors.getD []) key = some descriptor) ∧
      (Entries.get? (components.descriptors.getD []) key = none →
        components.resolveDescriptor (.descriptor key) =
          .error (.reference ("content descriptor '" ++ key ++ "' is not defined")
            ("#/components/contentDescriptors/" ++ key))) := by
  refine ⟨Reference.componentParts?_component_iff, fun r kind name ↦ ?_,
    Reference.target_eq_modelName, fun components key hk ↦ ?_⟩
  · rw [Reference.componentParts?_eq_some_iff, Reference.pointsTo_iff]
  · rw [components.resolveDescriptor_descriptor hk]
    cases Entries.get? (components.descriptors.getD []) key with
    | some found => simp
    | none => exact ⟨by simp, fun _ ↦ rfl⟩

/-- A slash in the name of a descriptor belongs to the name: the reference leads to the descriptor
under the whole of it, and neither end of it is taken for another name. -/
theorem references_agree_paged :
    "page/size" ≠ "" ∧ "page" ≠ "" ∧
      paged.resolveDescriptor (.descriptor "page/size") =
        .ok { name := "pageSize", schema := .flag false } ∧
      paged.resolveDescriptor (.descriptor "page") =
        .error (.reference "content descriptor 'page' is not defined"
          "#/components/contentDescriptors/page") := by
  have hs : "page/size" ≠ "" := by decide
  have hp : "page" ≠ "" := by decide
  refine ⟨hs, hp, ?_, ?_⟩
  · exact ((references_agree.2.2.2 paged "page/size" hs).1 _).mpr rfl
  · exact (references_agree.2.2.2 paged "page" hp).2 rfl

end Components

end RpcForge

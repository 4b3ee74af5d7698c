import Mathlib.Data.List.Nodup
import RpcForge.Proofs.Naming

/-!
# Names put together

The names of generated classes are put together from names that a document gives and fixed texts.
Such names differ wherever they end differently. Where they begin and end alike, they differ if what
lies between does.
-/

namespace RpcForge

namespace Naming

/-- All characters of a text may stand in a name. -/
def IsWord (text : String) : Prop :=
  ∀ c ∈ text.toList, isNameChar c = true

instance (text : String) : Decidable (IsWord text) :=
  List.decidableBAll (fun c ↦ isNameChar c = true) text.toList

theorem IsWord.append {front back : String} (h : IsWord front) (h' : IsWord back) :
    IsWord (front ++ back) := by
  intro c hc
  rw [String.toList_append, List.mem_append] at hc
  exact hc.elim (h c) (h' c)

theorem isWord_cased (join : List (List Char) → List Char) (text : String) :
    IsWord (cased join text) :=
  fun c hc ↦ (isNameChar_iff c).mpr ((isIdentifier_cased join text).forall_mem c hc)

/-- The last four characters of a name, from the last one on. -/
def ending (name : String) : List Char :=
  name.toList.reverse.take 4

theorem ending_append (front : String) {back : String} (h : 4 ≤ back.toList.length) :
    ending (front ++ back) = ending back := by
  have hl : 4 ≤ back.toList.reverse.length := by rwa [List.length_reverse]
  rw [ending, String.toList_append, List.reverse_append, List.take_append_of_le_length hl, ending]

/-- Names that begin and end alike differ if what lies between does. -/
theorem injective_between (front back : String) :
    Function.Injective fun name ↦ front ++ name ++ back := by
  intro a b h
  have hl := congrArg String.toList h
  simpa [String.toList_inj] using hl

/-- Families of names with endings of their own do not meet, so their names differ if they do so
within each family. -/
theorem nodup_flatMap_iff_of_endings {families : List (List Char × List String)}
    (hd : (families.map Prod.fst).Nodup)
    (he : ∀ family ∈ families, ∀ name ∈ family.2, ending name = family.1) :
    (families.flatMap Prod.snd).Nodup ↔ ∀ family ∈ families, family.2.Nodup := by
  rw [List.nodup_flatMap]
  refine and_iff_left ((List.pairwise_map.mp hd).imp_of_mem ?_)
  intro family other hf ho hne name hn hn'
  exact hne ((he family hf name hn).symm.trans (he other ho name hn'))

end Naming

/-- What the name of the class of a group has between the name of the client and its ending. -/
def Group.stem (group : Group) : String :=
  String.join (group.path.map Naming.pascal)

private theorem Group.isWord_stem (group : Group) : Naming.IsWord group.stem := by
  intro c hc
  rw [stem, String.toList_join, List.mem_flatMap] at hc
  obtain ⟨_, hm, hc⟩ := hc
  obtain ⟨segment, -, rfl⟩ := List.mem_map.mp hm
  exact Naming.isWord_cased _ segment c hc

namespace Plan

theorem groupClass_eq (plan : Plan) (suffix : String) (group : Group) :
    plan.groupClass suffix group = plan.clientName ++ group.stem ++ suffix :=
  rfl

theorem isWord_groupClass (plan : Plan) {suffix : String} (h : Naming.IsWord suffix)
    (group : Group) : Naming.IsWord (plan.groupClass suffix group) :=
  ((Naming.isWord_cased _ _).append group.isWord_stem).append h

/-- Classes with one ending have different names if their groups have different stems. -/
theorem nodup_map_groupClass_iff (plan : Plan) (suffix : String) (groups : List Group) :
    (groups.map (plan.groupClass suffix)).Nodup ↔ (groups.map Group.stem).Nodup := by
  have hm : groups.map (plan.groupClass suffix) =
      (groups.map Group.stem).map fun stem ↦ plan.clientName ++ stem ++ suffix := by
    rw [List.map_map]
    rfl
  rw [hm, List.nodup_map_iff (Naming.injective_between plan.clientName suffix)]

end Plan

end RpcForge

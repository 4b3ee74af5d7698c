import RpcForge.Proofs.Client.ClassNames
import RpcForge.Proofs.Package.ClientCode

/-!
# Declared names

The blocks at the top of a generated source declare names: a class, a function, an interface or an
enumeration. The header of the block has the name behind the words for what it is.
-/

namespace RpcForge

namespace Package

/-- The words that begin a declaration. -/
def declaringWords : Language → List String
  | .python => ["class ", "def "]
  | .typeScript => ["export enum ", "export interface ", "export class ", "function "]

/-- A header introduces a name: it stands behind the words of a declaration, and what follows it can
stand in no name. -/
def Introduces (l : Language) (name header : String) : Prop :=
  ∃ word ∈ declaringWords l, ∃ rest, header = word ++ name ++ rest ∧
    rest.toList.head?.any Naming.isNameChar = false

/-- A block declares a name. -/
structure Declares (l : Language) (name : String) (block : String × List Code) : Prop where
  /-- The name has no characters that can stand in none. -/
  isWord : Naming.IsWord name
  /-- The header of the block introduces it. -/
  header : Introduces l name block.1

theorem introduces_classHeader (l : Language) (name : String) (base : Option String) :
    Introduces l name (classHeader l name base) := by
  cases l with
  | python =>
    refine ⟨"class ", by decide, ?_⟩
    cases base with
    | none => exact ⟨"", String.append_empty.symm, by decide⟩
    | some base =>
      refine ⟨"(" ++ base ++ ")", ?_, ?_⟩
      · change "class " ++ name ++ "(" ++ base ++ ")" = _
        simp only [String.append_assoc]
      · rw [String.toList_append, String.toList_append]
        rfl
  | typeScript =>
    refine ⟨"export class ", by decide, ?_⟩
    cases base with
    | none => exact ⟨"", String.append_empty.symm, by decide⟩
    | some base =>
      refine ⟨" extends " ++ base, ?_, ?_⟩
      · change "export class " ++ name ++ " extends " ++ base = _
        simp only [String.append_assoc]
      · rw [String.toList_append]
        rfl

/-- Where each thing has a block that introduces its name, the blocks declare the names. -/
theorem declares_blocks {α : Type} {l : Language} {f : α → List Code} {nameOf : α → String}
    (h : ∀ a, ∃ block, Code.blocks (f a) = [block] ∧ Introduces l (nameOf a) block.1) {as : List α}
    (hw : ∀ a ∈ as, Naming.IsWord (nameOf a)) :
    List.Forall₂ (Declares l) (as.map nameOf) (Code.blocks (as.flatMap f)) := by
  rw [List.forall₂_map_left_iff]
  refine ((List.forall₂_and_left _ _).mpr ⟨hw, Code.forall₂_blocks_flatMap h as⟩).imp ?_
  rintro a block ⟨hw, hi⟩
  exact ⟨hw, hi⟩

/-- Where each thing is written as its class, the blocks declare the names of the classes. -/
theorem declares_classes {α : Type} {l : Language} {isClient : Bool} {f : α → List Code}
    {classOf : α → ClassOutline}
    (h : ∀ a, ∃ block, Code.blocks (f a) = [block] ∧ ShowsClass l isClient (classOf a) block)
    {as : List α} (hw : ∀ a ∈ as, Naming.IsWord (classOf a).name) :
    List.Forall₂ (Declares l) (as.map fun a ↦ (classOf a).name) (Code.blocks (as.flatMap f)) := by
  refine declares_blocks (fun a ↦ ?_) hw
  obtain ⟨block, hb, ⟨base, -, hh⟩, -⟩ := h a
  exact ⟨block, hb, hh ▸ introduces_classHeader _ _ _⟩

end Package

end RpcForge

import Mathlib.Data.List.Forall2
import RpcForge.Package.Comment

/-!
# The blocks of a piece of code

A block is a header with the code that belongs to it, behind a colon or between braces. Classes and
functions are blocks; lines, texts and comments are not. The blocks inside a block are those of its
body.
-/

namespace RpcForge

namespace Code

mutual

/-- The block that a piece of code is, or the blocks in it where it is only indented. -/
def blocksIn : Code → List (String × List Code)
  | .nested body => blocks body
  | .braced header body => [(header, body)]
  | .suite header body => [(header, body)]
  | .text _ => []
  | .line _ => []
  | .blank => []
  | .hold => []
  | .release => []
  | .doc _ _ => []

/-- The blocks of code in order, without those inside of others. -/
def blocks : List Code → List (String × List Code)
  | [] => []
  | code :: rest => blocksIn code ++ blocks rest

end

@[simp] theorem blocks_nil : blocks [] = [] := rfl

@[simp] theorem blocks_text (t : String) (rest : List Code) :
    blocks (.text t :: rest) = blocks rest :=
  rfl

@[simp] theorem blocks_line (t : String) (rest : List Code) :
    blocks (.line t :: rest) = blocks rest :=
  rfl

@[simp] theorem blocks_blank (rest : List Code) : blocks (.blank :: rest) = blocks rest :=
  rfl

@[simp] theorem blocks_doc (start content : String) (rest : List Code) :
    blocks (.doc start content :: rest) = blocks rest :=
  rfl

@[simp] theorem blocks_nested (body rest : List Code) :
    blocks (.nested body :: rest) = blocks body ++ blocks rest :=
  rfl

@[simp] theorem blocks_suite (header : String) (body rest : List Code) :
    blocks (.suite header body :: rest) = (header, body) :: blocks rest :=
  rfl

@[simp] theorem blocks_braced (header : String) (body rest : List Code) :
    blocks (.braced header body :: rest) = (header, body) :: blocks rest :=
  rfl

@[simp] theorem blocks_append (code rest : List Code) :
    blocks (code ++ rest) = blocks code ++ blocks rest := by
  induction code with
  | nil => simp
  | cons first code ih => rw [List.cons_append, blocks, blocks, ih, List.append_assoc]

@[simp] theorem blocks_flatMap {α : Type} (f : α → List Code) (as : List α) :
    blocks (as.flatMap f) = as.flatMap fun a ↦ blocks (f a) := by
  induction as with
  | nil => simp
  | cons a as ih => rw [List.flatMap_cons, blocks_append, ih, List.flatMap_cons]

/-- The blocks that stand right inside of other blocks. -/
def innerBlocks (code : List Code) : List (String × List Code) :=
  (blocks code).flatMap fun block ↦ blocks block.2

@[simp] theorem innerBlocks_append (code rest : List Code) :
    innerBlocks (code ++ rest) = innerBlocks code ++ innerBlocks rest := by
  simp [innerBlocks]

@[simp] theorem innerBlocks_flatMap {α : Type} (f : α → List Code) (as : List α) :
    innerBlocks (as.flatMap f) = as.flatMap fun a ↦ innerBlocks (f a) := by
  induction as with
  | nil => simp [innerBlocks]
  | cons a as ih => rw [List.flatMap_cons, innerBlocks_append, ih, List.flatMap_cons]

/-- Lines are no blocks. -/
@[simp] theorem blocks_map_line {α : Type} (f : α → String) (as : List α) :
    blocks (as.map fun a ↦ .line (f a)) = [] := by
  induction as with
  | nil => simp
  | cons a as ih => rw [List.map_cons, blocks_line, ih]

/-! ## What is written for items -/

theorem forall₂_flatMap {α β γ : Type} {R : β → γ → Prop} {f : α → List β} {g : α → List γ}
    (h : ∀ a, List.Forall₂ R (f a) (g a)) (as : List α) :
    List.Forall₂ R (as.flatMap f) (as.flatMap g) := by
  refine List.rel_flatMap (R := Eq) (List.forall₂_refl as) ?_
  rintro a _ rfl
  exact h a

/-- Where one thing is written for each item, the things are those for the items, in order. -/
theorem forall₂_flatMap_singleton_of_mem {α β : Type} {R : α → β → Prop} {f : α → List β}
    {as : List α} (h : ∀ a ∈ as, ∃ b, f a = [b] ∧ R a b) : List.Forall₂ R as (as.flatMap f) := by
  induction as with
  | nil => exact .nil
  | cons a as ih =>
    obtain ⟨⟨b, hb, hr⟩, has⟩ := List.forall_mem_cons.mp h
    rw [List.flatMap_cons, hb]
    exact .cons hr (ih has)

theorem forall₂_flatMap_singleton {α β : Type} {R : α → β → Prop} {f : α → List β}
    (h : ∀ a, ∃ b, f a = [b] ∧ R a b) (as : List α) : List.Forall₂ R as (as.flatMap f) :=
  forall₂_flatMap_singleton_of_mem fun a _ ↦ h a

/-- Items that are written as one block each are written as these blocks. -/
theorem forall₂_blocks_flatMap {α : Type} {R : α → String × List Code → Prop} {f : α → List Code}
    (h : ∀ a, ∃ block, blocks (f a) = [block] ∧ R a block) (as : List α) :
    List.Forall₂ R as (blocks (as.flatMap f)) := by
  rw [blocks_flatMap]
  exact forall₂_flatMap_singleton h as

end Code

namespace Comment

open Code

/-- Documentation is no block. -/
@[simp] theorem blocks_docstring (text : String) : blocks (docstring text) = [] := by
  unfold docstring
  split
  · simp
  · simp
  · next first rest _ _ =>
    rw [List.cons_append, blocks_line, blocks_append]
    simpa using blocks_map_line id rest

@[simp] theorem blocks_block (text : String) : blocks (block text) = [] := by
  unfold block
  dsimp only
  split
  · simp
  · split <;> simp

end Comment

end RpcForge

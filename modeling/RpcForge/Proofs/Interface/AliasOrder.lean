import Mathlib.Data.Fintype.Card
import Mathlib.Data.List.Induction
import Mathlib.Data.List.Nodup
import Mathlib.Data.Set.Finite.List
import Mathlib.Order.Bounds.Basic
import RpcForge.Interface.AliasOrder

/-!
# Ordering aliases

The rounds in which aliases are written lose none of them and write none twice. An alias is written
in some round exactly if what it refers to leads to no cycle: in the round that the longest chain of
references from it counts, so behind all that it refers to. The other aliases stand at the end, as
they came.
-/

namespace RpcForge.Models

/-- A round and what it leaves are all aliases. -/
private theorem ready_append_blocked_perm (aliases written : List String) (left : List Model) :
    (ready aliases written left ++ blocked aliases written left).Perm left :=
  List.filter_append_perm _ _

/-- The rounds are a rearrangement of the aliases that are left. -/
private theorem aliasRounds_perm (aliases written : List String) (left : List Model) :
    (aliasRounds aliases written left).Perm left := by
  fun_induction aliasRounds aliases written left with
  | case1 written left h => simpa [h] using ready_append_blocked_perm aliases written left
  | case2 written left h ih =>
    exact (ih.append_left _).trans (ready_append_blocked_perm aliases written left)

/-- Aliases are written in a rearrangement. -/
theorem aliasOrder_perm (aliases : List Model) : (aliasOrder aliases).Perm aliases :=
  aliasRounds_perm _ _ _

/-- Where no alias is ready, all are written as they come. -/
theorem aliasOrder_eq_self {aliases : List Model}
    (h : ∀ model ∈ aliases, isReady (aliases.map Model.name) [] model = false) :
    aliasOrder aliases = aliases := by
  have hr : ready (aliases.map Model.name) [] aliases = [] :=
    List.filter_eq_nil_iff.mpr fun model hm ↦ by simp [h model hm]
  rw [aliasOrder, aliasRounds, dif_pos hr]
  exact List.filter_eq_self.mpr fun model hm ↦ by simp [h model hm]

/-! ## Aliases that refer to aliases -/

/-- An alias is referred to by another one. -/
structure Uses (aliases : List Model) (other model : Model) : Prop where
  /-- It is one of the aliases. -/
  mem : other ∈ aliases
  /-- Its name is a reference of the other one. -/
  name_mem : other.name ∈ model.meaning.references
  /-- It is not the other one. -/
  name_ne : other.name ≠ model.name

/-- An alias can be written: what it refers to can be written before it, and so on down to aliases
that refer to none. -/
def Grounded (aliases : List Model) (model : Model) : Prop :=
  Acc (Uses aliases) model

variable {aliases left : List Model} {written : List String} {model : Model}

/-- What a grounded alias refers to is grounded. -/
theorem Grounded.of_uses {other : Model} (h : Grounded aliases model)
    (hu : Uses aliases other model) : Grounded aliases other :=
  h.inv hu

/-- An alias is ready if all that it refers to is written. -/
private theorem isReady_iff : isReady (aliases.map Model.name) written model = true ↔
    ∀ other, Uses aliases other model → other.name ∈ written := by
  simp only [isReady, List.all_eq_true, Bool.or_eq_true, beq_iff_eq, Bool.not_eq_true',
    List.contains_eq_mem, decide_eq_false_iff_not, decide_eq_true_eq]
  constructor
  · intro h other hu
    rcases h other.name hu.name_mem with (h | h) | h
    · exact absurd h hu.name_ne
    · exact absurd (List.mem_map_of_mem hu.mem) h
    · exact h
  · intro h name hn
    by_cases hs : name = model.name
    · exact .inl (.inl hs)
    by_cases hm : name ∈ aliases.map Model.name
    · obtain ⟨other, ho, rfl⟩ := List.mem_map.mp hm
      exact .inr (h other ⟨ho, hn, hs⟩)
    · exact .inl (.inr hm)

/-! ## Depth -/

open scoped Classical

/-- A chain of so many references starts from an alias. -/
inductive Chain (aliases : List Model) : Model → Nat → Prop
  | nil (model : Model) : Chain aliases model 0
  | cons {other model : Model} {n : Nat} (uses : Uses aliases other model)
      (rest : Chain aliases other n) : Chain aliases model (n + 1)

/-- The longest chain of references from an alias has so many of them. -/
def HasDepth (aliases : List Model) (model : Model) (depth : Nat) : Prop :=
  IsGreatest {n | Chain aliases model n} depth

/-- A chain of references leads from an alias to one that refers to itself in the end. -/
def ReachesCycle (aliases : List Model) (model : Model) : Prop :=
  ∃ other, Relation.ReflTransGen (Uses aliases) other model ∧
    Relation.TransGen (Uses aliases) other other

/-- The aliases of a depth, as they come. -/
noncomputable def layer (aliases : List Model) (depth : Nat) : List Model :=
  aliases.filter (HasDepth aliases · depth)

variable {k n : Nat}

private theorem chain_succ_iff :
    Chain aliases model (n + 1) ↔ ∃ other, Uses aliases other model ∧ Chain aliases other n :=
  ⟨fun | .cons hu h => ⟨_, hu, h⟩, fun ⟨_, hu, h⟩ ↦ .cons hu h⟩

/-- A chain can be cut off. -/
private theorem Chain.of_le (h : Chain aliases model n) (hk : k ≤ n) : Chain aliases model k := by
  induction h generalizing k with
  | nil => exact Nat.le_zero.mp hk ▸ .nil _
  | cons hu _ ih =>
    cases k with
    | zero => exact .nil _
    | succ k => exact .cons hu (ih (Nat.le_of_succ_le_succ hk))

private theorem hasDepth_iff :
    HasDepth aliases model n ↔ Chain aliases model n ∧ ¬ Chain aliases model (n + 1) := by
  refine and_congr_right fun _ ↦ ⟨fun h hn ↦ Nat.not_succ_le_self n (h hn), fun h k hk ↦ ?_⟩
  by_contra hl
  exact h (hk.of_le (Nat.lt_of_not_le hl))

private theorem mem_layer :
    model ∈ layer aliases n ↔ model ∈ aliases ∧ HasDepth aliases model n := by
  simp [layer]

/-- An alias refers to no other one of its depth or a greater one. -/
private theorem HasDepth.not_uses {other : Model} (hm : HasDepth aliases model k)
    (ho : HasDepth aliases other n) (hk : k ≤ n) : ¬ Uses aliases other model := fun hu ↦
  (hasDepth_iff.mp hm).2 (.cons hu (ho.1.of_le hk))

/-- From an alias that is not grounded there are chains of any length. -/
private theorem chain_of_not_grounded (h : ¬ Grounded aliases model) (n : Nat) :
    Chain aliases model n := by
  induction n generalizing model with
  | zero => exact .nil _
  | succ n ih =>
    obtain ⟨other, hu, ho⟩ : ∃ other, Uses aliases other model ∧ ¬ Grounded aliases other := by
      by_contra hall
      push Not at hall
      exact h (.intro _ hall)
    exact .cons hu (ih ho)

/-- If every chain of some length can be continued, none starts from a grounded alias. -/
private theorem not_grounded_of_chain (hs : ∀ model ∈ aliases, Chain aliases model n →
    Chain aliases model (n + 1)) (hm : model ∈ aliases) (h : Chain aliases model n) :
    ¬ Grounded aliases model := by
  intro hg
  induction hg with
  | intro model _ ih =>
    obtain ⟨other, hu, ho⟩ := chain_succ_iff.mp (hs model hm h)
    exact ih other hu hu.mem ho

/-- An alias is grounded exactly if it leads to no cycle. -/
private theorem grounded_iff : Grounded aliases model ↔ ¬ ReachesCycle aliases model := by
  constructor
  · rintro h ⟨other, hr, hc⟩
    -- an alias that leads to a cycle refers to one that does
    induction h with
    | intro model _ ih =>
      rcases hr.cases_tail with rfl | ⟨next, hr, hu⟩
      · obtain ⟨next, hr, hu⟩ := Relation.TransGen.tail'_iff.mp hc
        exact ih next hu hr
      · exact ih next hu hr
  · intro h
    -- on the finitely many aliases to which it leads, the references are well-founded
    let reached := {other | Relation.ReflTransGen (Uses aliases) other model}
    have hf : reached.Finite := by
      refine ((List.finite_toSet aliases).insert model).subset fun other ho ↦ ?_
      rcases Relation.ReflTransGen.cases_head ho with rfl | ⟨_, hu, _⟩
      · exact .inl rfl
      · exact .inr hu.mem
    have := hf.to_subtype
    let r (a b : reached) : Prop := Relation.TransGen (Uses aliases) a b
    have : IsTrans reached r := ⟨fun _ _ _ ↦ Relation.TransGen.trans⟩
    have : Std.Irrefl r := ⟨fun a hc ↦ h ⟨a, a.2, hc⟩⟩
    have hw : WellFounded r := Finite.wellFounded_of_trans_of_irrefl r
    have hacc (other : reached) : Grounded aliases other := by
      induction other using hw.induction with
      | h other ih =>
        exact .intro _ fun next hu ↦ ih ⟨next, .head hu other.2⟩ (.single hu)
    exact hacc ⟨model, .refl⟩

/-- An alias that has a depth leads to no cycle. -/
private theorem HasDepth.not_reachesCycle (h : HasDepth aliases model n) :
    ¬ ReachesCycle aliases model :=
  grounded_iff.mp <| by_contra fun hg ↦ (hasDepth_iff.mp h).2 (chain_of_not_grounded hg _)

/-- An alias leads where the ones that it refers to lead. -/
theorem ReachesCycle.of_uses {other : Model} (h : ReachesCycle aliases other)
    (hu : Uses aliases other model) : ReachesCycle aliases model :=
  h.imp fun _ ⟨hr, hc⟩ ↦ ⟨hr.tail hu, hc⟩

/-! ## The rounds -/

/-- What holds before a round: left are the aliases from which there is a chain as long as there
have been rounds, and the other ones are written. -/
structure BeforeRound (aliases : List Model) (n : Nat) (written : List String)
    (left : List Model) : Prop where
  /-- What is left are the aliases with such a chain. -/
  left_eq : left = aliases.filter (Chain aliases · n)
  /-- What is written are the aliases without one. -/
  mem_written : ∀ model ∈ aliases, model.name ∈ written ↔ ¬ Chain aliases model n

/-- Before the first round all aliases are left. -/
private theorem beforeRound_zero (aliases : List Model) : BeforeRound aliases 0 [] aliases where
  left_eq := (List.filter_eq_self.mpr fun model _ ↦ decide_eq_true (.nil model)).symm
  mem_written model _ := iff_of_false List.not_mem_nil (not_not_intro (.nil model))

namespace BeforeRound

/-- The aliases from which no longer chain starts are ready. -/
private theorem isReady_iff (h : BeforeRound aliases n written left) :
    isReady (aliases.map Model.name) written model = true ↔ ¬ Chain aliases model (n + 1) := by
  rw [Models.isReady_iff, chain_succ_iff, not_exists]
  exact forall_congr' fun other ↦ ⟨fun hw ⟨hu, hc⟩ ↦ (h.mem_written other hu.mem).mp (hw hu) hc,
    fun hn hu ↦ (h.mem_written other hu.mem).mpr fun hc ↦ hn ⟨hu, hc⟩⟩

/-- A round writes the aliases of its depth. -/
private theorem ready_eq (h : BeforeRound aliases n written left) :
    ready (aliases.map Model.name) written left = layer aliases n := by
  rw [ready, layer, h.left_eq, List.filter_filter]
  refine List.filter_congr fun model _ ↦ Bool.eq_iff_iff.mpr ?_
  rw [Bool.and_eq_true, h.isReady_iff, decide_eq_true_eq, decide_eq_true_eq, hasDepth_iff,
    and_comm]

/-- A round keeps what holds before it. -/
theorem next (h : BeforeRound aliases n written left) (hd : (aliases.map Model.name).Nodup) :
    BeforeRound aliases (n + 1)
      (written ++ (ready (aliases.map Model.name) written left).map Model.name)
      (blocked (aliases.map Model.name) written left) where
  left_eq := by
    rw [blocked, h.left_eq, List.filter_filter]
    refine List.filter_congr fun model _ ↦ Bool.eq_iff_iff.mpr ?_
    rw [Bool.and_eq_true, Bool.not_eq_true', ← Bool.not_eq_true, h.isReady_iff, not_not,
      decide_eq_true_eq, decide_eq_true_eq]
    exact and_iff_left_of_imp fun hc ↦ hc.of_le (Nat.le_succ n)
  mem_written model hm := by
    have hl : model.name ∈ (layer aliases n).map Model.name ↔ HasDepth aliases model n := by
      refine ⟨fun hl ↦ ?_, fun hl ↦ List.mem_map_of_mem (mem_layer.mpr ⟨hm, hl⟩)⟩
      obtain ⟨other, ho, he⟩ := List.mem_map.mp hl
      rw [mem_layer] at ho
      exact List.inj_on_of_nodup_map hd ho.1 hm he ▸ ho.2
    rw [h.ready_eq, List.mem_append, h.mem_written model hm, hl, hasDepth_iff]
    refine ⟨?_, fun hn ↦ (em (Chain aliases model n)).symm.imp_right (⟨·, hn⟩)⟩
    rintro (hn | hn)
    · exact mt (·.of_le (Nat.le_succ n)) hn
    · exact hn.2

/-- If a round is empty, left are the aliases that lead to a cycle. -/
private theorem left_eq_of_ready_eq_nil (h : BeforeRound aliases n written left)
    (he : ready (aliases.map Model.name) written left = []) :
    left = aliases.filter (ReachesCycle aliases ·) := by
  rw [h.ready_eq] at he
  have hs : ∀ model ∈ aliases, Chain aliases model n → Chain aliases model (n + 1) := by
    intro model hm hc
    by_contra hn
    exact List.not_mem_nil (he ▸ mem_layer.mpr ⟨hm, hasDepth_iff.mpr ⟨hc, hn⟩⟩)
  rw [h.left_eq]
  refine List.filter_congr fun model hm ↦ Bool.eq_iff_iff.mpr ?_
  rw [decide_eq_true_eq, decide_eq_true_eq, ← not_iff_not, ← grounded_iff]
  exact ⟨fun hn ↦ by_contra fun hg ↦ hn (chain_of_not_grounded hg n),
    fun hg hc ↦ not_grounded_of_chain hs hm hc hg⟩

end BeforeRound

/-- The rounds write a layer each, and at the end stand the aliases that lead to a cycle. -/
private theorem exists_aliasRounds_eq (hd : (aliases.map Model.name).Nodup)
    (h : BeforeRound aliases n written left) : ∃ rounds,
      aliasRounds (aliases.map Model.name) written left =
        (List.range' n rounds).flatMap (layer aliases) ++
          aliases.filter (ReachesCycle aliases ·) := by
  fun_induction aliasRounds (aliases.map Model.name) written left generalizing n with
  | case1 written left he =>
    refine ⟨0, ?_⟩
    have hb : blocked (aliases.map Model.name) written left = left :=
      List.filter_eq_self.mpr fun model hm ↦ by
        simpa using List.filter_eq_nil_iff.mp he model hm
    rw [hb, h.left_eq_of_ready_eq_nil he, List.range'_zero, List.flatMap_nil, List.nil_append]
  | case2 written left he ih =>
    obtain ⟨rounds, hr⟩ := ih (h.next hd)
    refine ⟨rounds + 1, ?_⟩
    rw [hr, h.ready_eq, List.range'_succ, List.flatMap_cons, List.append_assoc]

/-- In layers of growing depth no alias refers to a later one. -/
private theorem pairwise_flatMap_layer (aliases : List Model) (n : Nat) :
    ((List.range n).flatMap (layer aliases)).Pairwise fun earlier later ↦
      ¬ Uses aliases later earlier := by
  refine List.pairwise_flatMap.mpr ⟨fun depth _ ↦ ?_, List.pairwise_le_range.imp ?_⟩
  · exact List.pairwise_of_forall_mem_list fun earlier he later hl ↦
      (mem_layer.mp he).2.not_uses (mem_layer.mp hl).2 le_rfl
  · exact fun hk earlier he later hl ↦ (mem_layer.mp he).2.not_uses (mem_layer.mp hl).2 hk

/-! ## The order -/

/-- An order of aliases by what they refer to. -/
structure Layered (aliases order : List Model) : Prop where
  /-- It has the aliases, each as often. -/
  perm : order.Perm aliases
  /-- First come those that lead to no cycle, by their depth and else as they come, and then those
  that lead to one, as they come. -/
  layers : ∃ depths,
    order = (List.range depths).flatMap (layer aliases) ++
      aliases.filter (ReachesCycle aliases ·) ∧
    ∀ model ∈ aliases, (∃ depth < depths, HasDepth aliases model depth) ↔
      ¬ ReachesCycle aliases model
  /-- What an alias refers to that leads to no cycle stands before it. -/
  after : ∀ model ∈ aliases, ¬ ReachesCycle aliases model → ∀ other, Uses aliases other model →
    ∃ before after, order = before ++ model :: after ∧ other ∈ before

/-- The layers and the aliases that lead to a cycle are all aliases. -/
private theorem exists_aliasOrder_eq_layers (hd : (aliases.map Model.name).Nodup) : ∃ depths,
    aliasOrder aliases = (List.range depths).flatMap (layer aliases) ++
      aliases.filter (ReachesCycle aliases ·) := by
  obtain ⟨depths, he⟩ := exists_aliasRounds_eq hd (beforeRound_zero aliases)
  exact ⟨depths, List.range_eq_range' ▸ he⟩

/-- Aliases are written as the grounded ones, none of which refers to a later one, and then the
others as they come. -/
theorem exists_aliasOrder_eq (hd : (aliases.map Model.name).Nodup) : ∃ sorted,
    aliasOrder aliases = sorted ++ aliases.filter (¬ Grounded aliases ·) ∧
      (∀ model ∈ sorted, Grounded aliases model) ∧
      sorted.Pairwise fun earlier later ↦ ¬ Uses aliases later earlier := by
  obtain ⟨depths, he⟩ := exists_aliasOrder_eq_layers hd
  simp only [grounded_iff, not_not]
  refine ⟨_, he, fun model hm hc ↦ ?_, pairwise_flatMap_layer aliases depths⟩
  obtain ⟨depth, -, hm⟩ := List.mem_flatMap.mp hm
  exact (mem_layer.mp hm).2.not_reachesCycle hc

/-- Aliases of distinct names are ordered by what they refer to. -/
theorem aliasOrder_layered (hd : (aliases.map Model.name).Nodup) :
    Layered aliases (aliasOrder aliases) := by
  obtain ⟨depths, he⟩ := exists_aliasOrder_eq_layers hd
  -- an alias that leads to no cycle is not among the last ones, so it is in a layer
  have mem_layers {model : Model} (hm : model ∈ aliases) (hc : ¬ ReachesCycle aliases model) :
      model ∈ (List.range depths).flatMap (layer aliases) := by
    have ho := (aliasOrder_perm aliases).mem_iff.mpr hm
    rw [he, List.mem_append] at ho
    exact ho.resolve_right fun hl ↦ hc (of_decide_eq_true (List.mem_filter.mp hl).2)
  refine ⟨aliasOrder_perm aliases, ⟨depths, he, fun model hm ↦ ⟨?_, fun hc ↦ ?_⟩⟩, ?_⟩
  · rintro ⟨depth, -, h⟩
    exact h.not_reachesCycle
  · obtain ⟨depth, hd, hm⟩ := List.mem_flatMap.mp (mem_layers hm hc)
    exact ⟨depth, List.mem_range.mp hd, (mem_layer.mp hm).2⟩
  · intro model hm hc other hu
    have hp := pairwise_flatMap_layer aliases depths
    have ho := mem_layers hu.mem (mt (ReachesCycle.of_uses · hu) hc)
    obtain ⟨before, after, hs⟩ := List.append_of_mem (mem_layers hm hc)
    rw [hs] at he hp ho
    refine ⟨before, after ++ _, he.trans (List.append_assoc ..), ?_⟩
    rw [List.pairwise_append, List.pairwise_cons] at hp
    rcases List.mem_append.mp ho with ho | ho
    · exact ho
    rcases List.mem_cons.mp ho with rfl | ho
    · exact absurd rfl hu.name_ne
    · exact absurd hu (hp.2.1.1 other ho)

/-- Aliases for lists of each other: two of them lie on a cycle, and one leads to it. -/
def tangled : List Model :=
  [("Chains", "Links"), ("Nets", "Ropes"), ("Ropes", "Knots"), ("Knots", "Ropes"),
    ("Links", "Text")].map fun (name, items) ↦
      { name := name, meaning := .list (some (.ref ("#/components/schemas/" ++ items))) false }

/-- Chains come behind links, and what leads to the cycle stands at the end as it came. -/
theorem aliasOrder_layered_tangled :
    (tangled.map Model.name).Nodup ∧ Layered tangled (aliasOrder tangled) ∧
      (aliasOrder tangled).map Model.name = ["Links", "Chains", "Nets", "Ropes", "Knots"] := by
  refine ⟨by decide, aliasOrder_layered (by decide), ?_⟩
  rw [aliasOrder, aliasRounds, dif_neg (by decide), aliasRounds, dif_neg (by decide), aliasRounds,
    dif_pos (by decide)]
  decide

/-- All aliases are grounded exactly if they can be put into an order in which none refers to a
later one. -/
theorem forall_grounded_iff (hd : (aliases.map Model.name).Nodup) :
    (∀ model ∈ aliases, Grounded aliases model) ↔ ∃ order : List Model, order.Perm aliases ∧
      order.Pairwise fun earlier later ↦ ¬ Uses aliases later earlier := by
  constructor
  · intro h
    obtain ⟨sorted, he, -, hp⟩ := exists_aliasOrder_eq hd
    rw [List.filter_eq_nil_iff.mpr fun model hm ↦ by simpa using h model hm, List.append_nil] at he
    exact ⟨sorted, he ▸ aliasOrder_perm aliases, hp⟩
  · rintro ⟨order, hm, hp⟩ model hmem
    -- from the front of the order on, what an alias refers to stands before it
    have hg : ∀ before after, order = before ++ after →
        ∀ model ∈ before, Grounded aliases model := by
      intro before
      induction before using List.reverseRecOn with
      | nil => exact fun _ _ ↦ List.forall_mem_nil _
      | append_singleton before last ih =>
        intro after ho
        rw [List.append_assoc, List.singleton_append] at ho
        have hb := ih _ ho
        refine List.forall_mem_append.mpr ⟨hb, List.forall_mem_singleton.mpr ?_⟩
        refine .intro _ fun other hu ↦ ?_
        rw [ho, List.pairwise_append, List.pairwise_cons] at hp
        have ho' := hm.mem_iff.mpr hu.mem
        rw [ho, List.mem_append, List.mem_cons] at ho'
        rcases ho' with ho' | rfl | ho'
        · exact hb other ho'
        · exact absurd rfl hu.name_ne
        · exact absurd hu (hp.2.1.1 other ho')
    exact hg order [] (List.append_nil _).symm model (hm.mem_iff.mpr hmem)

end RpcForge.Models

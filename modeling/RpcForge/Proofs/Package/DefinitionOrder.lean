import RpcForge.Proofs.Client.Plan
import RpcForge.Proofs.Package.Models

/-!
# The order of definitions in Python

A module is run from top to bottom. What an alias stands for is evaluated where the alias is
written, so all models that are spelled in it have to be defined by then. Aliases are ordered by all
that they refer to, which is more than what is spelled: an alias that only seems to lie on a cycle
can be written before what it needs.
-/

namespace RpcForge

/-- The name of the model that a stretch is. -/
def Piece.name? : Piece → Option String
  | .fixed _ => none
  | .model name => some name

/-- The names of the models in a type as it is spelled, in order and with repetitions. -/
def Meaning.spelledNames (l : Language) (m : Meaning) : List String :=
  (TypeExpr.pieces l (TypeExpr.ofMeaning l m)).filterMap Piece.name?

private theorem Meaning.mem_spelledNames_iff {l : Language} {m : Meaning} {name : String} :
    name ∈ m.spelledNames l ↔ .model name ∈ TypeExpr.pieces l (TypeExpr.ofMeaning l m) := by
  rw [spelledNames, List.mem_filterMap]
  constructor
  · rintro ⟨piece, hp, hn⟩
    cases piece with
    | fixed _ => cases hn
    | model _ =>
      obtain rfl := Option.some.inj hn
      exact hp
  · exact fun h ↦ ⟨_, h, rfl⟩

/-- Whatever model is spelled is referred to. -/
private theorem Meaning.spelledNames_subset_references (l : Language) (m : Meaning) :
    m.spelledNames l ⊆ m.references := fun _ h ↦
  TypeExpr.mem_references_of_mentions m
    (TypeExpr.mem_mentions_of_pieces (mem_spelledNames_iff.mp h))

namespace Models

/-! ## Definitions one after the other -/

/-- Types are defined one after the other behind the `defined` ones, and each spells only what is
defined before it. -/
def DefinedInTurn (l : Language) (defined : List String) : List Model → Prop
  | [] => True
  | model :: rest =>
    model.meaning.spelledNames l ⊆ defined ∧ DefinedInTurn l (defined ++ [model.name]) rest

instance (l : Language) : ∀ (defined : List String) (order : List Model),
    Decidable (DefinedInTurn l defined order)
  | _, [] => .isTrue trivial
  | defined, model :: rest =>
    have := instDecidableDefinedInTurn l (defined ++ [model.name]) rest
    inferInstanceAs (Decidable (_ ∧ _))

/-- Definitions of different names stand in turn if no type spells itself or one that comes after
it, as long as each spells only what is defined at all. -/
private theorem definedInTurn_iff {l : Language} {defined : List String} {order : List Model}
    (hd : (defined ++ order.map Model.name).Nodup)
    (hk : ∀ model ∈ order, model.meaning.spelledNames l ⊆ defined ++ order.map Model.name) :
    DefinedInTurn l defined order ↔
      (∀ model ∈ order, model.name ∉ model.meaning.spelledNames l) ∧
        order.Pairwise fun earlier later ↦ later.name ∉ earlier.meaning.spelledNames l := by
  induction order generalizing defined with
  | nil => simp [DefinedInTurn]
  | cons model rest ih =>
    have hs : defined ++ (model :: rest).map Model.name =
        (defined ++ [model.name]) ++ rest.map Model.name := by simp
    have hsub : model.meaning.spelledNames l ⊆ defined ↔
        model.name ∉ model.meaning.spelledNames l ∧
          ∀ later ∈ rest, later.name ∉ model.meaning.spelledNames l := by
      constructor
      · intro h
        have hn := (List.nodup_append.mp hd).2.2
        exact ⟨fun hm ↦ hn _ (h hm) _ (.head _) rfl,
          fun later hl hm ↦ hn _ (h hm) _ (.tail _ (List.mem_map_of_mem hl)) rfl⟩
      · rintro ⟨hm, hr⟩ name hn
        have hn' := hk model (.head _) hn
        rw [List.mem_append, List.map_cons, List.mem_cons, List.mem_map] at hn'
        rcases hn' with hn' | rfl | ⟨later, hl, rfl⟩
        · exact hn'
        · exact absurd hn hm
        · exact absurd hn (hr later hl)
    rw [hs] at hd hk
    rw [DefinedInTurn, ih hd fun other ho ↦ hk other (.tail _ ho), hsub, List.forall_mem_cons,
      List.pairwise_cons]
    tauto

/-- Ordered by what they refer to, aliases are defined in turn exactly if none spells itself, and of
those that are not grounded none spells a later one. -/
private theorem definedInTurn_aliasOrder_iff {l : Language} {defined : List String}
    {aliases : List Model} (hd : (defined ++ aliases.map Model.name).Nodup)
    (hk : ∀ model ∈ aliases, model.meaning.spelledNames l ⊆ defined ++ aliases.map Model.name) :
    DefinedInTurn l defined (aliasOrder aliases) ↔
      (∀ model ∈ aliases, model.name ∉ model.meaning.spelledNames l) ∧
        aliases.Pairwise fun earlier later ↦ ¬ Grounded aliases earlier →
          ¬ Grounded aliases later → later.name ∉ earlier.meaning.spelledNames l := by
  classical
  have hp := aliasOrder_perm aliases
  have hn := (hp.map Model.name).append_left defined
  rw [definedInTurn_iff (hn.nodup_iff.mpr hd) fun model hm name hs ↦
    hn.mem_iff.mpr (hk model (hp.mem_iff.mp hm) hs)]
  simp only [hp.mem_iff]
  refine and_congr_right fun hself ↦ ?_
  obtain ⟨sorted, he, hg, hs⟩ := exists_aliasOrder_eq (List.nodup_append.mp hd).2.1
  have mem_aliases {model : Model} (hm : model ∈ aliasOrder aliases) : model ∈ aliases :=
    hp.mem_iff.mp hm
  rw [he] at mem_aliases
  have uses {earlier later : Model} (hl : later ∈ aliases) (he : earlier ∈ aliases)
      (hm : later.name ∈ earlier.meaning.spelledNames l) : Uses aliases later earlier :=
    ⟨hl, Meaning.spelledNames_subset_references l _ hm, fun hn ↦ hself earlier he (hn ▸ hm)⟩
  -- the grounded aliases spell no later one, so only pairs of the others are left
  rw [he, List.pairwise_append, List.pairwise_filter]
  simp only [decide_eq_true_eq]
  have hfirst : sorted.Pairwise fun earlier later ↦
      later.name ∉ earlier.meaning.spelledNames l :=
    hs.imp_of_mem fun ha hb hu hm ↦ hu (uses (mem_aliases (List.mem_append_left _ hb))
      (mem_aliases (List.mem_append_left _ ha)) hm)
  have hcross : ∀ earlier ∈ sorted, ∀ later ∈ aliases.filter (¬ Grounded aliases ·),
      later.name ∉ earlier.meaning.spelledNames l := by
    intro earlier ha later hb hm
    obtain ⟨hb, hng⟩ := List.mem_filter.mp hb
    refine of_decide_eq_true hng ((hg earlier ha).of_uses (uses hb ?_ hm))
    exact mem_aliases (List.mem_append_left _ ha)
  exact ⟨fun h ↦ h.2.1, fun h ↦ ⟨hfirst, h, hcross⟩⟩

end Models

namespace PythonModels

/-! ## The module with the models -/

/-- The names that a module defines before its aliases. -/
def Module.namesBeforeAliases (m : Module) : List String :=
  m.enums.map EnumClass.name ++ m.records.map RecordClass.name

private theorem namesBeforeAliases_moduleOf (plan : Plan) :
    (moduleOf plan).namesBeforeAliases =
      ((plan.interface.models.ofKind .enumeration) ++ plan.interface.models.ofKind .record).map
        Model.name := by
  simp [Module.namesBeforeAliases, moduleOf, enumOf, recordOf, Function.comp_def]

/-- In a module that is run from top to bottom every alias spells only what is defined before it
exactly if no alias spells itself, and of the aliases that cannot be ordered by what they refer to
none spells a later one. All of them can be ordered so if there is an order in which none refers to
a later one. -/
theorem aliases_definedInTurn_iff {document : Document} {plan : Plan}
    (made : plan.MadeFor document) :
    let aliases := plan.interface.models.ofKind .synonym
    let order := Models.aliasOrder aliases
    (moduleOf plan).aliases = order.map aliasOf ∧
      (∀ model, (aliasOf model).type =
        Piece.textOf (TypeExpr.pieces .python (TypeExpr.ofMeaning .python model.meaning))) ∧
      (Models.DefinedInTurn .python (moduleOf plan).namesBeforeAliases order ↔
        (∀ model ∈ aliases, model.name ∉ model.meaning.spelledNames .python) ∧
          aliases.Pairwise fun earlier later ↦ ¬ Models.Grounded aliases earlier →
            ¬ Models.Grounded aliases later →
              later.name ∉ earlier.meaning.spelledNames .python) ∧
      ((∀ model ∈ aliases, Models.Grounded aliases model) ↔
        ∃ possible : List Model, possible.Perm aliases ∧
          possible.Pairwise fun earlier later ↦ ¬ Models.Uses aliases later earlier) := by
  intro aliases order
  have hp : ((moduleOf plan).namesBeforeAliases ++ aliases.map Model.name).Perm
      plan.interface.models.names := by
    refine .trans ?_ (plan.definedNames_perm .python)
    rw [Module.namesBeforeAliases, Plan.definedNames, List.append_assoc]
    refine List.Perm.append_left _ (List.Perm.append_left _ ?_)
    have he : (moduleOf plan).aliases.map AliasDef.name = order.map Model.name := by
      simp [moduleOf, aliasOf, order, aliases, Function.comp_def]
    rw [he]
    exact ((Models.aliasOrder_perm aliases).map Model.name).symm
  have hd := hp.nodup_iff.mpr plan.interface.models.distinct
  refine ⟨rfl, fun model ↦ (TypeExpr.textOf_pieces .python _).symm, ?_,
    Models.forall_grounded_iff (List.nodup_append.mp hd).2.1⟩
  refine Models.definedInTurn_aliasOrder_iff hd fun model hm name hs ↦ ?_
  have typed : plan.interface.Typed model.meaning := .model (List.mem_of_mem_filter hm)
  have hc := typed.contains_of_mem_pieces made.made.1 (Meaning.mem_spelledNames_iff.mp hs)
  exact hp.mem_iff.mpr (by simpa [Models.contains] using hc)

/-- A document with lists of trees, and with trees behind them. -/
def forest (tree : Schema) : Document where
  openrpc := "1.3.2"
  info := { title := "Forest", version := "1" }
  methods := []
  components := some { schemas := some [
    ("Trees", (Schema.ofType .array).withItems (Schema.referenceTo "Tree")), ("Tree", tree)] }

/-- The models of a plan for a forest are those of its schemas. -/
private theorem exists_plan_forest (tree : Schema)
    (accepted : ((Plan.ofDocument (forest tree)).toOption.map fun _ ↦ ()) = some ()) :
    ∃ plan, Plan.ofDocument (forest tree) = .ok plan ∧
      plan.interface.models = Models.ofComponents (forest tree).components :=
  Plan.exists_of_accepted accepted

/-- The alias for trees comes first where lists of trees need it. -/
theorem aliases_definedInTurn_text :
    ∃ plan, Plan.ofDocument (forest (Schema.ofType .string)) = .ok plan ∧
      Models.DefinedInTurn .python (moduleOf plan).namesBeforeAliases
        (Models.aliasOrder (plan.interface.models.ofKind .synonym)) := by
  obtain ⟨plan, hp, hm⟩ := exists_plan_forest (Schema.ofType .string) (by decide +kernel)
  obtain ⟨-, -, hi, hg⟩ := aliases_definedInTurn_iff (.fresh hp)
  rw [hm] at hi hg
  have hr : ((Models.ofComponents (forest (Schema.ofType .string)).components).ofKind
      .synonym).reverse.Pairwise fun earlier later ↦
        later.name ∉ earlier.meaning.references := by decide +kernel
  have hall := hg.mpr ⟨_, List.reverse_perm _, hr.imp fun h hu ↦ h hu.name_mem⟩
  refine ⟨plan, hp, hm ▸ hi.mpr ⟨by decide +kernel, ?_⟩⟩
  exact List.pairwise_of_forall_mem_list fun earlier he later _ hn ↦ absurd (hall earlier he) hn

/-- Trees of objects that hold lists of trees could stand before these lists, since what the objects
hold is not spelled; but they are written as they come. -/
theorem exists_not_definedInTurn :
    ∃ plan, Plan.ofDocument (forest ((Schema.ofType .array).withItems
        ((Schema.ofType .object).withProperty "children" (Schema.referenceTo "Trees")))) =
          .ok plan ∧
      (∃ possible : List Model, possible.Perm (plan.interface.models.ofKind .synonym) ∧
        Models.DefinedInTurn .python (moduleOf plan).namesBeforeAliases possible) ∧
      ¬ Models.DefinedInTurn .python (moduleOf plan).namesBeforeAliases
        (Models.aliasOrder (plan.interface.models.ofKind .synonym)) := by
  generalize ht : (Schema.ofType .array).withItems _ = tree
  obtain ⟨plan, hp, hm⟩ := exists_plan_forest tree (by subst ht; decide +kernel)
  have ho : Models.aliasOrder ((Models.ofComponents (forest tree).components).ofKind .synonym) =
      (Models.ofComponents (forest tree).components).ofKind .synonym :=
    Models.aliasOrder_eq_self (by subst ht; decide +kernel)
  refine ⟨plan, hp, ⟨(plan.interface.models.ofKind .synonym).reverse, List.reverse_perm _, ?_⟩, ?_⟩
  · rw [namesBeforeAliases_moduleOf, hm]
    subst ht
    decide +kernel
  · rw [namesBeforeAliases_moduleOf, hm, ho]
    subst ht
    decide +kernel

end PythonModels

end RpcForge

import RpcForge.Proofs.Client.TypeReading
import RpcForge.Proofs.Interface.Definitions
import RpcForge.Proofs.Package.Conversions

/-!
# Conversion of models

What is typed as a model is made one by its class if every union in its meaning has one member
apart from the literal `null`. A union of several members that are typed alike has the type of one
of them, but nothing converts it.
-/

namespace RpcForge

open TypeGrammar

/-! ## Meanings of one model -/

namespace Meaning

/-- A meaning is that of a model alone: a reference to it, or a union with one member apart from the
literal `null` that is that of the model alone. -/
inductive IsOnly (name : String) : Meaning → Prop
  /-- A reference to the model. -/
  | ref {pointer : String} (h : modelName pointer = name) : IsOnly name (.ref pointer)
  /-- A list of types with one apart from `null`. -/
  | types {members : List Meaning} {m : Meaning} (h : members.filter (!·.isNull) = [m])
    (hm : IsOnly name m) : IsOnly name (.types members)
  /-- A union with one branch apart from `null`. -/
  | union {combinator : Combinator} {branches : List Meaning} {m : Meaning}
    (h : branches.filter (!·.isNull) = [m]) (hm : IsOnly name m) :
    IsOnly name (.union combinator branches)

variable {name : String} {members : List Meaning}

private theorem isOnly_types_iff :
    IsOnly name (.types members) ↔ ∃ m, members.filter (!·.isNull) = [m] ∧ IsOnly name m := by
  constructor
  · rintro (_ | ⟨h, hm⟩)
    exact ⟨_, h, hm⟩
  · rintro ⟨m, h, hm⟩
    exact .types h hm

private theorem isOnly_union_iff {combinator : Combinator} :
    IsOnly name (.union combinator members) ↔
      ∃ m, members.filter (!·.isNull) = [m] ∧ IsOnly name m := by
  constructor
  · rintro (_ | _ | ⟨h, hm⟩)
    exact ⟨_, h, hm⟩
  · rintro ⟨m, h, hm⟩
    exact .union h hm

end Meaning

/-! ## Types of one model -/

namespace TypeTree

variable {name : String} {nullable : Bool} {t : TypeTree} {ts : List TypeTree}

/-- The tree of a model, with or without `null`. -/
def modelOr (name : String) (nullable : Bool) : TypeTree :=
  fold .typeScript [.model name] nullable

private theorem alternatives_ofAlternatives (h : ∀ t ∈ ts, t.alternatives = [t]) :
    (ofAlternatives ts).alternatives = ts := by
  match ts with
  | [] => rfl
  | [t] => exact h t (.head _)
  | _ :: _ :: _ => rfl

private theorem alternatives_modelOr (name : String) (nullable : Bool) :
    (modelOr name nullable).alternatives =
      .model name :: if nullable then [null .typeScript] else [] := by
  cases nullable <;> rfl

private theorem Spellable.alternatives_ne_nil (h : t.Spellable .typeScript) : t.alternatives ≠ [] :=
  (TypeScript.Reads.separated h).ne_nil

private theorem forall_alternatives {s : List Char} (h : Separated bar TypeScript.Suffixed ts s) :
    ∀ t ∈ ts, t.alternatives = [t] := by
  induction h with
  | one h => exact List.forall_mem_singleton.mpr h.alternatives
  | more h _ ih => exact List.forall_mem_cons.mpr ⟨h.alternatives, ih⟩

/-- A type of TypeScript is the union of its alternatives. -/
private theorem Spellable.ofAlternatives_alternatives (h : t.Spellable .typeScript) :
    ofAlternatives t.alternatives = t := by
  obtain ⟨h⟩ : TypeScript.Reads t _ := h
  rw [alternatives_ofAlternatives (forall_alternatives h)]

/-- Alternatives of types are no unions. -/
private theorem Spellable.alternatives_of_mem (h : t.Spellable .typeScript) {a : TypeTree}
    (ha : a ∈ t.alternatives) : a.alternatives = [a] :=
  forall_alternatives (TypeScript.Reads.separated h) a ha

/-- The alternatives of a union are those of its members, and `null` behind them. -/
private theorem alternatives_fold (hs : ts ≠ []) (h : ∀ t ∈ ts, t.Spellable .typeScript)
    (withNull : Bool) : (fold .typeScript ts withNull).alternatives =
      ts.flatMap alternatives ++ if withNull then [null .typeScript] else [] := by
  have ha : ∀ a ∈ ts.flatMap alternatives, a.alternatives = [a] := by
    intro a ha
    obtain ⟨t, ht, ha⟩ := List.mem_flatMap.mp ha
    exact (h t ht).alternatives_of_mem ha
  obtain ⟨t, ts, rfl⟩ := List.exists_cons_of_ne_nil hs
  cases withNull with
  | false =>
    refine (alternatives_ofAlternatives ha).trans ?_
    exact (List.append_nil _).symm
  | true => exact alternatives_ofAlternatives (List.forall_mem_append.mpr
      ⟨ha, List.forall_mem_singleton.mpr rfl⟩)

private theorem flatMap_alternatives_eq_nil (h : ∀ t ∈ ts, t.Spellable .typeScript)
    (he : ts.flatMap alternatives = []) : ts = [] := by
  rw [List.flatMap_eq_nil_iff] at he
  exact List.eq_nil_iff_forall_not_mem.mpr fun t ht ↦ (h t ht).alternatives_ne_nil (he t ht)

/-- No types other than `null` have it as their only alternative. -/
private theorem flatMap_alternatives_ne_null (h : ∀ t ∈ ts, t.Spellable .typeScript)
    (hn : null .typeScript ∉ ts) : ts.flatMap alternatives ≠ [null .typeScript] := by
  intro he
  cases ts with
  | nil => cases he
  | cons t ts =>
    obtain ⟨ht, -⟩ := List.forall_mem_cons.mp h
    rw [List.flatMap_cons, List.append_eq_singleton_iff] at he
    rcases he with ⟨hs, -⟩ | ⟨hs, -⟩
    · exact ht.alternatives_ne_nil hs
    · refine hn (List.mem_cons.mpr (.inl ?_))
      rw [← ht.ofAlternatives_alternatives, hs]
      rfl

/-- Where types other than `null` make up a model, with or without `null`, there is just one of
them. -/
private theorem fold_eq_modelOr {withNull : Bool} (h : ∀ t ∈ ts, t.Spellable .typeScript)
    (hn : null .typeScript ∉ ts) (he : fold .typeScript ts withNull = modelOr name nullable) :
    ∃ inner, ts = [modelOr name inner] ∧ (inner && withNull) = false ∧
      nullable = (inner || withNull) := by
  have hs : ts ≠ [] := by
    rintro rfl
    cases withNull <;> cases nullable <;> cases he
  have ha := congrArg alternatives he
  rw [alternatives_fold hs h, alternatives_modelOr] at ha
  obtain ⟨t, rest, rfl⟩ := List.exists_cons_of_ne_nil hs
  obtain ⟨ht, hrest⟩ := List.forall_mem_cons.mp h
  have hnr : null .typeScript ∉ rest := fun hm ↦ hn (.tail _ hm)
  -- the first type has the model as its first alternative
  have hte := ht.ofAlternatives_alternatives
  obtain ⟨a, as, hat⟩ := List.exists_cons_of_ne_nil ht.alternatives_ne_nil
  rw [List.flatMap_cons, hat, List.append_assoc, List.cons_append, List.cons.injEq] at ha
  obtain ⟨rfl, ha⟩ := ha
  rw [hat] at hte
  cases nullable with
  | false =>
    obtain ⟨rfl, hr⟩ := List.append_eq_nil_iff.mp ha
    obtain ⟨hr, hw⟩ := List.append_eq_nil_iff.mp hr
    obtain rfl := flatMap_alternatives_eq_nil hrest hr
    refine ⟨false, by rw [← hte]; rfl, rfl, ?_⟩
    cases withNull <;> simp_all
  | true =>
    rcases List.append_eq_singleton_iff.mp ha with ⟨rfl, hr⟩ | ⟨rfl, hr⟩
    · rcases List.append_eq_singleton_iff.mp hr with ⟨hr, hw⟩ | ⟨hr, -⟩
      · obtain rfl := flatMap_alternatives_eq_nil hrest hr
        refine ⟨false, by rw [← hte]; rfl, rfl, ?_⟩
        cases withNull <;> simp_all
      · exact absurd hr (flatMap_alternatives_ne_null hrest hnr)
    · obtain ⟨hr, hw⟩ := List.append_eq_nil_iff.mp hr
      obtain rfl := flatMap_alternatives_eq_nil hrest hr
      refine ⟨true, by rw [← hte]; rfl, ?_, rfl⟩
      cases withNull <;> simp_all

private theorem modelOr_ne_null (name : String) (nullable : Bool) :
    modelOr name nullable ≠ null .typeScript := by
  cases nullable <;> nofun

private theorem ofMeaning_of_isNull {m : Meaning} (h : m.isNull = true) :
    ofMeaning .typeScript m = null .typeScript := by
  match m with
  | .scalar .null => rfl
  | .const .null => rfl

/-- Where the members of a union make up a model, with or without `null`, they are `null` and what
makes up the model. -/
private theorem ofUnion_eq_modelOr (h : ∀ t ∈ ts, t.Spellable .typeScript)
    (he : ofUnion .typeScript ts = modelOr name nullable) :
    ∃ inner, modelOr name inner ∈ ts ∧ (inner && ts.contains (null .typeScript)) = false ∧
      nullable = (inner || ts.contains (null .typeScript)) := by
  have hm (t : TypeTree) : t ∈ (ts.filter (· ≠ null .typeScript)).eraseDups ↔
      t ∈ ts ∧ t ≠ null .typeScript := by
    simp
  obtain ⟨inner, hs, hi, hn⟩ := fold_eq_modelOr (fun t ht ↦ h t ((hm t).mp ht).1)
    (fun hn ↦ ((hm _).mp hn).2 rfl) he
  exact ⟨inner, ((hm _).mp (hs ▸ .head _)).1, hi, hn⟩

end TypeTree

namespace TypeScriptModels

open Meaning (IsOnly)

/-! ## Readings of one model -/

variable {models : Models} {model : Model} {name : String} {nullable : Bool}

/-- The reading of a model, with or without `null`. -/
def modelReading (name : String) (nullable : Bool) : Reading :=
  if nullable then .orNull (.record name) else .record name

/-- The reading of the only member that is not `null`, if there is just one. -/
private theorem soleReading?_eq (members : List Meaning) (nullable : Bool) :
    soleReading? models members nullable =
      match members.filter (!·.isNull) with
      | [m] => (reading? models m).map fun r ↦ if nullable then .orNull r else r
      | _ => none := by
  induction members with
  | nil => rfl
  | cons m ms ih =>
    rw [soleReading?, List.filter_cons]
    cases hm : m.isNull with
    | true => exact ih
    | false =>
      have ha : ms.all (·.isNull) = true ↔ ms.filter (!·.isNull) = [] := by
        simp [List.filter_eq_nil_iff]
      cases hf : ms.filter (!·.isNull) with
      | nil => simp [ha.mpr hf]
      | cons _ _ =>
        have hn : ms.all (·.isNull) = false := by simpa [hf] using ha
        simp [hn]

/-- A meaning that has the type of a model, with or without `null`, is read by the class of the
model if it is that of the model alone, and it is not converted at all otherwise. -/
def ReadAlone (models : Models) (name : String) (m : Meaning) : Prop :=
  ∀ nullable, TypeTree.ofMeaning .typeScript m = .modelOr name nullable →
    (IsOnly name m → reading? models m = some (modelReading name nullable)) ∧
      (¬IsOnly name m → reading? models m = none)

/-- If at most one member is not the literal `null`, and its type is not that of `null` either, then
the literal is a member exactly if its type is one of the types. -/
private theorem any_isNull_eq_contains {members : List Meaning} {m : Meaning}
    (hm : ∀ v ∈ members, v.isNull = false → v = m)
    (hn : TypeTree.ofMeaning .typeScript m ≠ .null .typeScript) :
    members.any (·.isNull) =
      (members.map (TypeTree.ofMeaning .typeScript)).contains (.null .typeScript) := by
  rw [Bool.eq_iff_iff, List.any_eq_true, List.contains_iff_mem, List.mem_map]
  refine exists_congr fun v ↦ and_congr_right fun hv ↦ ⟨TypeTree.ofMeaning_of_isNull, ?_⟩
  intro hvt
  by_contra hvn
  rw [Bool.not_eq_true] at hvn
  rw [hm v hv hvn] at hvt
  exact hn hvt

private theorem soleReading?_of_readAlone {members : List Meaning}
    (hs : ∀ m ∈ members, (TypeTree.ofMeaning .typeScript m).Spellable .typeScript)
    (hr : ∀ m ∈ members, ReadAlone models name m)
    (he : TypeTree.ofUnion .typeScript (TypeTree.ofMeanings .typeScript members) =
      .modelOr name nullable) :
    ((∃ m, members.filter (!·.isNull) = [m] ∧ IsOnly name m) →
        soleReading? models members (members.any (·.isNull)) =
          some (modelReading name nullable)) ∧
      ((¬∃ m, members.filter (!·.isNull) = [m] ∧ IsOnly name m) →
        soleReading? models members (members.any (·.isNull)) = none) := by
  rw [TypeTree.ofMeanings_eq_map] at he
  obtain ⟨inner, hi, hd, hn⟩ := TypeTree.ofUnion_eq_modelOr (List.forall_mem_map.mpr hs) he
  obtain ⟨u, hu, hut⟩ := List.mem_map.mp hi
  have hnu : u.isNull = false := by
    by_contra h
    rw [Bool.not_eq_false] at h
    exact TypeTree.modelOr_ne_null name inner (hut ▸ TypeTree.ofMeaning_of_isNull h)
  rw [soleReading?_eq]
  by_cases hf : ∃ m, members.filter (!·.isNull) = [m]
  · obtain ⟨m, hf⟩ := hf
    -- the only member that may differ from the literal `null` is what makes up the model
    have hm : ∀ v ∈ members, v.isNull = false → v = m := by
      intro v hv hvn
      have h : v ∈ members.filter (!·.isNull) := List.mem_filter.mpr ⟨hv, by simp [hvn]⟩
      rwa [hf, List.mem_singleton] at h
    obtain rfl := hm u hu hnu
    have hw := any_isNull_eq_contains hm (hut ▸ TypeTree.modelOr_ne_null name inner)
    obtain ⟨hy, hz⟩ := hr u hu inner hut
    simp only [hf, List.cons.injEq, and_true, exists_eq_left']
    constructor
    · intro ho
      rw [hy ho, hw, Option.map_some, hn]
      generalize (members.map (TypeTree.ofMeaning .typeScript)).contains _ = withNull at hd
      cases inner <;> cases withNull <;> first | rfl | cases hd
    · intro ho
      rw [hz ho, Option.map_none]
  · refine ⟨fun ⟨m, h, _⟩ ↦ absurd ⟨m, h⟩ hf, fun _ ↦ ?_⟩
    split
    · next m h => exact absurd ⟨m, h⟩ hf
    · rfl

mutual

/-- Whatever has the type of a class, with or without `null`, is read by it exactly if the meaning
is that of the class alone. -/
private theorem readAlone (hm : model ∈ models.toList) (hk : model.kind = .record) :
    ∀ m : Meaning, (∀ name ∈ m.references, IsModelName .typeScript name) →
      ReadAlone models model.name m
  | .ref pointer, _ => by
    intro nullable he
    cases nullable with
    | true => cases he
    | false =>
      have hp : Meaning.modelName pointer = model.name := TypeTree.model.inj he
      have hr : models.recordOf? (.ref pointer) = some model := by
        simp [Models.recordOf?, hp, Models.get?_of_mem hm, hk]
      refine ⟨fun _ ↦ ?_, fun ho ↦ absurd (.ref hp) ho⟩
      simp only [reading?, hr]
      rfl
  | .types members, h => by
    intro nullable he
    rw [Meaning.isOnly_types_iff]
    exact soleReading?_of_readAlone
      (fun m hs ↦ (TypeExpr.spelledAs_ofMeanings members h m hs).spellable)
      (readAlone_all hm hk members h) he
  | .union _ branches, h => by
    intro nullable he
    rw [Meaning.isOnly_union_iff]
    exact soleReading?_of_readAlone
      (fun m hs ↦ (TypeExpr.spelledAs_ofMeanings branches h m hs).spellable)
      (readAlone_all hm hk branches h) he
  | .absent, _ => by rintro (_ | _) ⟨⟩
  | .flag _, _ => by rintro (_ | _) ⟨⟩
  | .const v, _ => by cases v <;> rintro (_ | _) ⟨⟩
  | .scalar _, _ => by rintro (_ | _) ⟨⟩
  | .formatted _, _ => by rintro (_ | _) ⟨⟩
  | .list _ true, _ => by rintro (_ | _) ⟨⟩
  | .list _ false, _ => by rintro (_ | _) ⟨⟩
  | .tuple _ _ _, _ => by rintro (_ | _) ⟨⟩
  | .object _ _ _, _ => by rintro (_ | _) ⟨⟩

private theorem readAlone_all (hm : model ∈ models.toList) (hk : model.kind = .record) :
    ∀ ms : List Meaning, (∀ name ∈ Meaning.listReferences ms, IsModelName .typeScript name) →
      ∀ m ∈ ms, ReadAlone models model.name m
  | [], _ => List.forall_mem_nil _
  | m :: ms, h => List.forall_mem_cons.mpr
    ⟨readAlone hm hk m fun name hn ↦ h name (List.mem_append_left _ hn),
      readAlone_all hm hk ms fun name hn ↦ h name (List.mem_append_right _ hn)⟩

end

/-! ## Types and expressions -/

/-- A meaning is typed as a model, with or without `null`, if its tree is that of the model. -/
private theorem ofMeaning_eq_modelOr {m : Meaning} (hn : IsModelName .typeScript name)
    (names : ∀ name ∈ m.references, IsModelName .typeScript name)
    (ht : TypeExpr.typeOf .typeScript m = if nullable then name ++ " | null" else name) :
    TypeTree.ofMeaning .typeScript m = .modelOr name nullable := by
  have hs := TypeExpr.spelledAs_ofMeaning m names
  obtain ⟨hf, hb⟩ := TypeTree.fold_spells
    (List.forall_mem_singleton.mpr (TypeTree.spellable_model hn)) nullable
  refine hs.spellable.eq_of_spell_eq hb ?_
  rw [← hs.spell_eq, ← TypeExpr.typeOf, ht, TypeTree.modelOr, hf]
  cases nullable <;> rfl

private theorem text_modelReading (name : String) (nullable : Bool) (raw : String) :
    (modelReading name nullable).text raw =
      (if nullable then raw ++ " == null ? null : " else "") ++
        (name ++ ".fromJSON(" ++ raw ++ ")") := by
  cases nullable with
  | false => exact (String.empty_append).symm
  | true => rfl

/-- Where a meaning has the type of a class, with or without `null`, its expression is that of the
class, behind a test for `null` in the first case, exactly if the meaning is that of the class
alone. In every other case there is no expression, and raw JSON passes for an object of the class.
The models of an accepted document have names. -/
theorem typed_as_record_converted_iff (models : Models) (model : Model)
    (defined : model ∈ models.toList) (kind : model.kind = .record) (meaning : Meaning)
    (names : ∀ name ∈ model.name :: meaning.references, IsModelName .typeScript name)
    (nullable : Bool) (typed : TypeExpr.typeOf .typeScript meaning =
      if nullable then model.name ++ " | null" else model.name) (raw : String) :
    (TypeScriptClient.fromJson? models meaning raw =
        some ((if nullable then raw ++ " == null ? null : " else "") ++
          (model.name ++ ".fromJSON(" ++ raw ++ ")")) ↔ IsOnly model.name meaning) ∧
      (TypeScriptClient.fromJson? models meaning raw = none ↔ ¬IsOnly model.name meaning) ∧
      ∀ document interface, Interface.ofDocument document = .ok interface →
        ∀ name ∈ interface.models.names, IsName name.toList := by
  obtain ⟨hn, names⟩ := List.forall_mem_cons.mp names
  obtain ⟨ho, hno⟩ := readAlone defined kind meaning names nullable
    (ofMeaning_eq_modelOr hn names typed)
  have hc : IsOnly model.name meaning → TypeScriptClient.fromJson? models meaning raw =
      some ((if nullable then raw ++ " == null ? null : " else "") ++
        (model.name ++ ".fromJSON(" ++ raw ++ ")")) := by
    intro h
    rw [fromJson?_eq, ho h, Option.map_some, text_modelReading]
  have hnc : ¬IsOnly model.name meaning →
      TypeScriptClient.fromJson? models meaning raw = none := by
    intro h
    rw [fromJson?_eq, hno h, Option.map_none]
  refine ⟨⟨fun h ↦ ?_, hc⟩, ⟨fun h hi ↦ ?_, hnc⟩, fun _ _ ↦ Interface.named_of_ofDocument⟩
  · by_contra hi
    exact nomatch h.symm.trans (hnc hi)
  · exact nomatch h.symm.trans (hc hi)

/-- A class without properties, as the only model. -/
def pet : Models where
  toList := [{ name := "Pet", meaning := .object [] [] none }]
  distinct := List.nodup_singleton _

/-- The class or `null`. -/
def petOrNull : Meaning :=
  .union .one [.ref "#/components/schemas/Pet", .scalar .null]

/-- A class, or `null` in its place, is read by the class unless it is `null`. -/
theorem typed_as_record_converted_iff_pet :
    (∃ model ∈ pet.toList, model.kind = .record ∧
      (∀ name ∈ model.name :: petOrNull.references, IsModelName .typeScript name) ∧
      TypeExpr.typeOf .typeScript petOrNull = model.name ++ " | null") ∧
      TypeScriptClient.fromJson? pet petOrNull "result" =
        some "result == null ? null : Pet.fromJSON(result)" := by
  have hm : { name := "Pet", meaning := .object [] [] none } ∈ pet.toList := .head _
  have hn : ∀ name ∈ "Pet" :: petOrNull.references, IsModelName .typeScript name := by decide
  have ht : TypeExpr.typeOf .typeScript petOrNull = "Pet | null" := by decide
  refine ⟨⟨_, hm, rfl, hn, ht⟩, ?_⟩
  exact (typed_as_record_converted_iff pet _ hm rfl petOrNull hn true ht "result").1.mpr
    (.union rfl (.ref (by decide)))

/-- A document with a class and a method that returns something. -/
def adopting (result : Schema) : Document where
  openrpc := "1.3.2"
  info := { title := "Pets", version := "1" }
  methods := [.inline {
    name := "adopt"
    params := []
    result := some (.inline { name := "pet", schema := .schema result }) }]
  components := some { schemas := some [
    ("Pet", (Schema.ofType .object).withProperty "name" (Schema.ofType .string))] }

/-- A union of a class with itself has the type of the class, but nothing converts it. -/
theorem exists_typed_as_record_not_converted :
    ∃ plan, Plan.ofDocument (adopting (Schema.ofAny
        [Schema.referenceTo "Pet", Schema.referenceTo "Pet"])) = .ok plan ∧
      ∃ operation ∈ plan.interface.operations, ∃ model ∈ plan.interface.models.toList,
        model.kind = .record ∧ IsModelName .typeScript model.name ∧
          TypeExpr.typeOf .typeScript operation.result.meaning = model.name ∧
          TypeScriptClient.fromJson? plan.interface.models operation.result.meaning "result" =
            none ∧
          TypeScriptClient.outcomeOf plan.interface.models operation = .asIs model.name := by
  generalize hr : Schema.ofAny [Schema.referenceTo "Pet", Schema.referenceTo "Pet"] = result
  have hf : ((Plan.ofDocument (adopting result)).toOption.map fun plan ↦
      (plan.interface.models.toList.map fun model ↦ (model.kind, model.name),
        plan.interface.operations.map fun operation ↦
          (TypeExpr.typeOf .typeScript operation.result.meaning,
            TypeScriptClient.fromJson? plan.interface.models operation.result.meaning "result",
            operation.returnsNothing))) =
      some ([(.record, "Pet")], [("Pet", none, false)]) := by
    subst hr
    decide +kernel
  obtain ⟨plan, hp, he⟩ := exists_ok_of_map_toOption hf
  obtain ⟨hl, ho⟩ := Prod.mk.inj he
  obtain ⟨model, hm, hk⟩ := List.mem_map.mp (hl ▸ List.mem_singleton_self _)
  obtain ⟨operation, hi, hx⟩ := List.mem_map.mp (ho ▸ List.mem_singleton_self _)
  obtain ⟨hk, hn⟩ := Prod.mk.inj hk
  simp only [Prod.mk.injEq] at hx
  obtain ⟨ht, hc, hw⟩ := hx
  rw [← hn] at ht
  refine ⟨plan, hp, operation, hi, model, hm, hk, by rw [hn]; decide, ht, hc, ?_⟩
  rw [TypeScriptClient.outcomeOf, hw, hc, ht]
  rfl

end TypeScriptModels

end RpcForge

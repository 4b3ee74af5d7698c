import RpcForge.Proofs.Client.Mentions
import RpcForge.Proofs.Client.TypeSpelling
import RpcForge.Proofs.Entries
import RpcForge.Proofs.Interface.ModelNames

/-!
# Types read back

The type of a meaning is spelled as the tree of the meaning is, although the members of a union are
compared by their spellings on the one side and as trees on the other. So it reads back as that tree
and as no other.
-/

namespace RpcForge

open RpcForge.Json TypeGrammar

namespace TypeExpr

variable {l : Language}

/-! ## Members of a union -/

/-- The members that are kept, as they are spelled. -/
private theorem map_spell_dedupe (seen : List String) (ts : List TypeExpr) :
    (dedupe l seen ts).map (spell l) =
      ((ts.map (spell l)).filter (!seen.contains ·)).eraseDups := by
  induction ts generalizing seen with
  | nil => rfl
  | cons t ts ih =>
    rw [dedupe, List.map_cons, List.filter_cons]
    by_cases h : seen.contains (spell l t)
    · rw [if_pos h, ih, if_neg (by simpa using h)]
    · rw [if_neg h, List.map_cons, ih, if_pos (by simpa using h), List.eraseDups_cons,
        List.filter_filter]
      simp only [List.contains_cons, Bool.not_or]

/-- A union is spelled from the spellings of its members. -/
theorem spell_ofUnion (members : List (Meaning × TypeExpr)) :
    spell l (ofUnion l members) =
      foldText l
        ((members.filter (!isNullMember l ·)).map fun member ↦ spell l member.2).eraseDups
        (members.any (isNullMember l)) := by
  have hd := map_spell_dedupe (l := l) [] ((members.filter (!isNullMember l ·)).map Prod.snd)
  have hf (texts : List String) : texts.filter (!([] : List String).contains ·) = texts := by simp
  rw [hf, List.map_map] at hd
  change _ = foldText l (List.map (spell l ∘ Prod.snd) _).eraseDups _
  rw [ofUnion, ← hd]
  generalize dedupe l [] _ = ts
  generalize members.any (isNullMember l) = nullable
  cases ts with
  | nil => cases nullable <;> cases l <;> rfl
  | cons t ts =>
    cases ts with
    | nil =>
      cases nullable with
      | false => rfl
      | true => exact spell_nullable t
    | cons u ts =>
      cases nullable with
      | false => exact spell_union (t :: u :: ts)
      | true =>
        change spell l (.nullable (.union (t :: u :: ts))) = _
        rw [spell_nullable, spell_union]
        rfl

/-! ## Meanings as trees -/

/-- A type is spelled as a tree is, and that spelling reads back as the tree. -/
structure SpelledAs (l : Language) (t : TypeExpr) (tree : TypeTree) : Prop where
  /-- The spellings are the same. -/
  spell_eq : spell l t = tree.spell l
  /-- They read back as the tree. -/
  spellable : tree.Spellable l

private theorem SpelledAs.set {t : TypeExpr} {tree : TypeTree} (h : SpelledAs l t tree) :
    SpelledAs l (.set t) (.set tree) :=
  ⟨spell_set_congr h.spell_eq, h.spellable.set⟩

theorem SpelledAs.list {t : TypeExpr} {tree : TypeTree} (h : SpelledAs l t tree) :
    SpelledAs l (.list t) (.list tree) :=
  ⟨spell_list_congr h.spell_eq, h.spellable.list⟩

theorem SpelledAs.map {t : TypeExpr} {tree : TypeTree} (h : SpelledAs l t tree) :
    SpelledAs l (.map t) (.map tree) :=
  ⟨spell_map_congr h.spell_eq, h.spellable.map⟩

private theorem spelledAs_any : SpelledAs l (.word (anyWord l)) (.any l) :=
  ⟨by cases l <;> rfl, TypeTree.spellable_any⟩

private theorem spelledAs_scalar (kind : Scalar) :
    SpelledAs l (.word (scalarWord l kind)) (.word (scalarWord l kind)) :=
  ⟨by cases l <;> rfl, TypeTree.spellable_scalarWord kind⟩

private theorem spelledAs_format (format : StringFormat) :
    SpelledAs l (.word (formatWord l format)) (.word (formatWord l format)) :=
  ⟨by cases l <;> rfl, TypeTree.spellable_formatWord format⟩

private theorem spelledAs_model {name : String} (h : IsModelName l name) :
    SpelledAs l (.model name) (.model name) :=
  ⟨by cases l <;> rfl, TypeTree.spellable_model h⟩

private theorem spelledAs_literal {v : Value} {value : LiteralTree}
    (he : literalText v = value.spell) (h : ReadsLiteral value value.spell.toList) :
    SpelledAs .python (.literal v) (.literal value) :=
  ⟨congrArg (fun text ↦ "Literal[" ++ text ++ "]") he, TypeTree.spellable_literal h⟩

private theorem spelledAs_const (v : Value) : SpelledAs l (ofConst l v) (TypeTree.ofConst l v) := by
  cases l with
  | python =>
    cases v with
    | null => exact spelledAs_scalar .null
    | bool b =>
      cases b with
      | true => exact spelledAs_literal rfl .yes
      | false => exact spelledAs_literal rfl .no
    | number n =>
      have h := ReadsLiteral.numeral (isNumeral_render n)
      rw [String.ofList_toList] at h
      exact spelledAs_literal rfl h
    | string s => exact spelledAs_literal rfl (readsLiteral_quote s)
    | array _ => exact spelledAs_any
    | object _ => exact spelledAs_any
  | typeScript =>
    cases v with
    | null => exact spelledAs_scalar .null
    | bool _ => exact spelledAs_scalar .boolean
    | number _ => exact spelledAs_scalar .number
    | string _ => exact spelledAs_scalar .string
    | array _ => exact spelledAs_any
    | object _ => exact spelledAs_any

/-- The trees of meanings, spelled one by one, are the types of the meanings. -/
private theorem map_spell_eq {ms : List Meaning}
    (h : ∀ m ∈ ms, SpelledAs l (ofMeaning l m) (TypeTree.ofMeaning l m)) :
    (ms.map (ofMeaning l)).map (spell l) =
      (ms.map (TypeTree.ofMeaning l)).map (TypeTree.spell l) := by
  rw [List.map_map, List.map_map]
  exact List.map_congr_left fun m hm ↦ (h m hm).spell_eq

private theorem spelledAs_tuple {ms : List Meaning}
    (h : ∀ m ∈ ms, SpelledAs l (ofMeaning l m) (TypeTree.ofMeaning l m)) :
    SpelledAs l (.tuple (ofMeanings l ms)) (.tuple (TypeTree.ofMeanings l ms)) := by
  rw [ofMeanings_eq_map, TypeTree.ofMeanings_eq_map]
  constructor
  · rw [spell_tuple, TypeTree.spell_tuple, map_spell_eq h]
  · apply TypeTree.Spellable.tuple
    intro t ht
    obtain ⟨m, hm, rfl⟩ := List.mem_map.mp ht
    exact (h m hm).spellable

theorem spell_ofMeaning_of_isNull {m : Meaning} (h : m.isNull = true) :
    spell l (ofMeaning l m) = scalarWord l .null := by
  match m with
  | .scalar .null => cases l <;> rfl
  | .const .null => cases l <;> rfl

/-- A member of a union is `null` if it is spelled so. -/
theorem isNullMember_ofMeaning_iff (m : Meaning) :
    isNullMember l (m, ofMeaning l m) = true ↔ spell l (ofMeaning l m) = scalarWord l .null := by
  rw [isNullMember, Bool.or_eq_true, beq_iff_eq]
  exact ⟨fun h ↦ h.elim spell_ofMeaning_of_isNull id, .inr⟩

/-- A member of a union is `null` if its tree is. -/
private theorem isNullMember_iff {m : Meaning}
    (h : SpelledAs l (ofMeaning l m) (TypeTree.ofMeaning l m)) :
    isNullMember l (m, ofMeaning l m) = true ↔ TypeTree.ofMeaning l m = .null l := by
  have hn : (TypeTree.null l).spell l = scalarWord l .null := by cases l <;> rfl
  rw [isNullMember_ofMeaning_iff, h.spell_eq, ← hn]
  exact ⟨h.spellable.eq_of_spell_eq TypeTree.spellable_null, congrArg _⟩

/-- The members of a union other than `null`, as they are spelled and as trees. -/
private theorem map_spell_filter {ms : List Meaning}
    (h : ∀ m ∈ ms, SpelledAs l (ofMeaning l m) (TypeTree.ofMeaning l m)) :
    ((ms.zip (ofMeanings l ms)).filter (!isNullMember l ·)).map (fun member ↦ spell l member.2) =
      ((TypeTree.ofMeanings l ms).filter (· ≠ .null l)).map (TypeTree.spell l) := by
  induction ms with
  | nil => rfl
  | cons m ms ih =>
    obtain ⟨hm, hms⟩ := List.forall_mem_cons.mp h
    rw [ofMeanings, TypeTree.ofMeanings, List.zip_cons_cons, List.filter_cons, List.filter_cons]
    by_cases hn : TypeTree.ofMeaning l m = .null l
    · rw [if_neg (by simpa using (isNullMember_iff hm).mpr hn), if_neg (by simpa using hn)]
      exact ih hms
    · rw [if_pos (by simpa using mt (isNullMember_iff hm).mp hn), if_pos (by simpa using hn),
        List.map_cons, List.map_cons, ih hms, hm.spell_eq]

/-- Some member of a union is `null` if some tree is. -/
private theorem any_isNullMember {ms : List Meaning}
    (h : ∀ m ∈ ms, SpelledAs l (ofMeaning l m) (TypeTree.ofMeaning l m)) :
    (ms.zip (ofMeanings l ms)).any (isNullMember l) =
      (TypeTree.ofMeanings l ms).contains (.null l) := by
  induction ms with
  | nil => rfl
  | cons m ms ih =>
    obtain ⟨hm, hms⟩ := List.forall_mem_cons.mp h
    rw [ofMeanings, TypeTree.ofMeanings, List.zip_cons_cons, List.any_cons, ih hms,
      List.contains_cons]
    congr 1
    rw [Bool.eq_iff_iff, isNullMember_iff hm, beq_iff_eq]
    exact eq_comm

private theorem spelledAs_ofUnion {ms : List Meaning}
    (h : ∀ m ∈ ms, SpelledAs l (ofMeaning l m) (TypeTree.ofMeaning l m)) :
    SpelledAs l (ofUnion l (ms.zip (ofMeanings l ms)))
      (TypeTree.ofUnion l (TypeTree.ofMeanings l ms)) := by
  have ht : ∀ t ∈ (TypeTree.ofMeanings l ms).filter (· ≠ .null l), t.Spellable l := by
    intro t ht
    rw [TypeTree.ofMeanings_eq_map] at ht
    obtain ⟨m, hm, rfl⟩ := List.mem_map.mp (List.mem_filter.mp ht).1
    exact (h m hm).spellable
  -- spelling keeps the members apart, so that the same ones are first occurrences
  have he := eraseDups_map fun a ha b hb ↦ (ht a ha).eq_of_spell_eq (ht b hb)
  obtain ⟨hf, hb⟩ := TypeTree.fold_spells (fun t hm ↦ ht t (List.mem_eraseDups.mp hm))
    ((TypeTree.ofMeanings l ms).contains (.null l))
  refine ⟨?_, hb⟩
  rw [spell_ofUnion, map_spell_filter h, any_isNullMember h, he, ← hf]
  rfl

mutual

theorem spelledAs_ofMeaning :
    ∀ m : Meaning, (∀ name ∈ m.references, IsModelName l name) →
      SpelledAs l (ofMeaning l m) (TypeTree.ofMeaning l m)
  | .absent, _ => spelledAs_any
  | .flag _, _ => spelledAs_any
  | .const v, _ => spelledAs_const v
  | .scalar kind, _ => spelledAs_scalar kind
  | .formatted format, _ => spelledAs_format format
  | .tuple members _ _, h => spelledAs_tuple
      (spelledAs_ofMeanings members fun name hn ↦ h name (List.mem_append_right _ hn))
  | .list items true, h => (spelledAs_ofItem items h).set
  | .list items false, h => (spelledAs_ofItem items h).list
  | .object _ _ additional, h =>
    (spelledAs_ofItem additional fun name hn ↦ h name (List.mem_append_right _ hn)).map
  | .types members, h => spelledAs_ofUnion (spelledAs_ofMeanings members h)
  | .union _ branches, h => spelledAs_ofUnion (spelledAs_ofMeanings branches h)
  | .ref _, h => spelledAs_model (h _ (.head _))

private theorem spelledAs_ofItem :
    ∀ item : Option Meaning, (∀ name ∈ Meaning.optionReferences item, IsModelName l name) →
      SpelledAs l (ofItem l item) (TypeTree.ofItem l item)
  | none, _ => spelledAs_any
  | some m, h => spelledAs_ofMeaning m h

theorem spelledAs_ofMeanings :
    ∀ ms : List Meaning, (∀ name ∈ Meaning.listReferences ms, IsModelName l name) →
      ∀ m ∈ ms, SpelledAs l (ofMeaning l m) (TypeTree.ofMeaning l m)
  | [], _ => List.forall_mem_nil _
  | m :: ms, h => List.forall_mem_cons.mpr
    ⟨spelledAs_ofMeaning m fun name hn ↦ h name (List.mem_append_left _ hn),
      spelledAs_ofMeanings ms fun name hn ↦ h name (List.mem_append_right _ hn)⟩

end

/-- Where there are several alternatives there is a bar. -/
private theorem bar_mem_of_separated {α : Type} {R : α → List Char → Prop} {as : List α}
    {s : List Char} (h : Separated bar R as s) (hl : 1 < as.length) : '|' ∈ s := by
  cases h with
  | one _ => exact absurd hl (Nat.lt_irrefl 1)
  | more _ _ => simp [bar]

/-- In TypeScript a list of several alternatives has them as an argument. -/
private theorem typeOf_list_of_alternatives {item : Meaning}
    (h : SpelledAs .typeScript (ofMeaning .typeScript item) (TypeTree.ofMeaning .typeScript item))
    (hl : 1 < (TypeTree.ofMeaning .typeScript item).alternatives.length) :
    typeOf .typeScript (.list (some item) false) = "Array<" ++ typeOf .typeScript item ++ ">" := by
  have hr : TypeScript.Reads (TypeTree.ofMeaning .typeScript item)
      (typeOf .typeScript item).toList := by
    rw [typeOf, h.spell_eq]
    exact h.spellable
  have hb := bar_mem_of_separated hr.separated hl
  change typeScriptList (typeOf .typeScript item) = _
  rw [typeScriptList, Text.hasChar, if_pos (by simpa using hb)]

/-- If the models that a meaning refers to have names of their own, its type reads as the tree of
the meaning and as no other. In particular, brackets do not make a list of the last one of several
alternatives only. The models of an accepted document have names. -/
theorem reads_typeOf_iff (l : Language) (m : Meaning)
    (names : ∀ name ∈ m.references, IsModelName l name) :
    (∀ t, Reads l t (typeOf l m).toList ↔ t = TypeTree.ofMeaning l m) ∧
      (∀ item, l = .typeScript → m = .list (some item) false →
        1 < (TypeTree.ofMeaning l item).alternatives.length →
        typeOf l m = "Array<" ++ typeOf l item ++ ">") ∧
      ∀ document interface, Interface.ofDocument document = .ok interface →
        ∀ name ∈ interface.models.names, IsName name.toList := by
  have h := spelledAs_ofMeaning m names
  have hr : Reads l (TypeTree.ofMeaning l m) (typeOf l m).toList := by
    rw [typeOf, h.spell_eq]
    exact h.spellable
  refine ⟨fun t ↦ ⟨fun ht ↦ ht.unique hr, ?_⟩, ?_, fun _ _ ↦ Interface.named_of_ofDocument⟩
  · rintro rfl
    exact hr
  · rintro item rfl rfl hl
    exact typeOf_list_of_alternatives (spelledAs_ofMeaning item names) hl

/-- A point, the text `a]`, or `null`. -/
def alternatives : Meaning :=
  .union .any [.ref "#/components/schemas/Point", .const (.string "a]"), .scalar .null,
    .ref "Point"]

/-- A list of alternatives is read back whole, although one of them has a bracket in its text. -/
theorem reads_typeOf_iff_alternatives :
    (∀ l, ∀ name ∈ (Meaning.list (some alternatives) false).references, IsModelName l name) ∧
      (∀ t, Reads .python t "list[Optional[Union[Point, Literal[\"a]\"]]]]".toList ↔
        t = .list (.nullable (.union [.model "Point", .literal (.text "a]")]))) ∧
      (∀ t, Reads .typeScript t "Array<Point | string | null>".toList ↔
        t = .list (.union [.model "Point", .word "string", .word "null"])) ∧
      typeOf .typeScript (.list (some alternatives) false) =
        "Array<" ++ typeOf .typeScript alternatives ++ ">" := by
  have names (l : Language) :
      ∀ name ∈ (Meaning.list (some alternatives) false).references, IsModelName l name := by
    cases l <;> decide
  obtain ⟨hp, -⟩ := reads_typeOf_iff .python _ (names .python)
  obtain ⟨ht, ha, -⟩ := reads_typeOf_iff .typeScript _ (names .typeScript)
  exact ⟨names, hp, ht, ha alternatives rfl rfl (by decide)⟩

end TypeExpr

end RpcForge

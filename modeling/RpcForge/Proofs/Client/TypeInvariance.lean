import Mathlib.Logic.Relation
import RpcForge.Proofs.Client.TypeReading
import RpcForge.Proofs.Text.Pieces

/-!
# What types ignore

Not everything that a meaning says is in its type. Where a reference points besides its last name,
how a composition is combined, which properties an object has, and what stands behind the first
items of an array are left out; members of a union that are there already are dropped, and where
`null` stands among them makes no difference. Since a type is spelled from the spellings of its
parts, all this may change anywhere in a meaning.
-/

namespace RpcForge

namespace Meaning

/-! ## Changes -/

/-- A pointer ends in a name, which is all that stands behind its last slash. -/
def EndsIn (pointer name : String) : Prop :=
  '/' ∉ name.toList ∧ (pointer = name ∨ ∃ front, pointer = front ++ "/" ++ name)

/-- A meaning is `null`, or any of several that are nothing else. -/
inductive OnlyNull : Meaning → Prop
  | literal {m : Meaning} (h : m.isNull = true) : OnlyNull m
  | types {m : Meaning} {ms : List Meaning} (h : ∀ n ∈ m :: ms, OnlyNull n) :
    OnlyNull (.types (m :: ms))
  | union {m : Meaning} {ms : List Meaning} (combinator : Combinator)
    (h : ∀ n ∈ m :: ms, OnlyNull n) : OnlyNull (.union combinator (m :: ms))

/-- A list of members is changed, but not what it allows. -/
inductive RearrangesTo : List Meaning → List Meaning → Prop
  /-- A copy of a member is put in behind it. -/
  | copied {m : Meaning} (front rest : List Meaning) (h : m ∈ front) :
    RearrangesTo (front ++ rest) (front ++ m :: rest)
  /-- A `null` is put in where there is one. -/
  | repeated {m n : Meaning} {front rest : List Meaning} (h : m ∈ front ++ rest)
    (hm : OnlyNull m) (hn : OnlyNull n) : RearrangesTo (front ++ rest) (front ++ n :: rest)
  /-- A `null` is moved. -/
  | moved {n : Meaning} (front between rest : List Meaning) (hn : OnlyNull n) :
    RearrangesTo (front ++ n :: (between ++ rest)) (front ++ between ++ n :: rest)

/-- A meaning is changed in a way that types ignore. -/
inductive IgnoredChange : Meaning → Meaning → Prop
  /-- A pointer is replaced by another one to the same name. -/
  | pointer {p q name : String} (hp : EndsIn p name) (hq : EndsIn q name) :
    IgnoredChange (.ref p) (.ref q)
  /-- The branches of a composition are combined otherwise. -/
  | combinator (c c' : Combinator) (branches : List Meaning) :
    IgnoredChange (.union c branches) (.union c' branches)
  /-- The branches of a composition become the types of which any may hold. -/
  | composition (c : Combinator) (branches : List Meaning) :
    IgnoredChange (.union c branches) (.types branches)
  /-- The properties of an object are replaced. -/
  | properties (ps ps' : List (String × Meaning)) (required required' : List String)
    (additional : Option Meaning) :
    IgnoredChange (.object ps required additional) (.object ps' required' additional)
  /-- What is said of the items behind the first ones is replaced. -/
  | items (members : List Meaning) (items items' : Option Meaning) (distinct distinct' : Bool) :
    IgnoredChange (.tuple members items distinct) (.tuple members items' distinct')
  /-- Nothing is said any more instead of a truth value. -/
  | flag (b : Bool) : IgnoredChange (.flag b) .absent
  /-- The types are rearranged. -/
  | types {members members' : List Meaning} (h : RearrangesTo members members') :
    IgnoredChange (.types members) (.types members')
  /-- The branches of a composition are rearranged. -/
  | union {branches branches' : List Meaning} (c : Combinator)
    (h : RearrangesTo branches branches') :
    IgnoredChange (.union c branches) (.union c branches')

/-- A meaning is made of parts, one of which is replaced in another meaning. -/
inductive ReplacesPart (m m' : Meaning) : Meaning → Meaning → Prop
  | list (distinct : Bool) : ReplacesPart m m' (.list (some m) distinct) (.list (some m') distinct)
  | tuple (front rest : List Meaning) (items : Option Meaning) (distinct : Bool) :
    ReplacesPart m m' (.tuple (front ++ m :: rest) items distinct)
      (.tuple (front ++ m' :: rest) items distinct)
  | items (members : List Meaning) (distinct : Bool) :
    ReplacesPart m m' (.tuple members (some m) distinct) (.tuple members (some m') distinct)
  | property (front rest : List (String × Meaning)) (name : String) (required : List String)
    (additional : Option Meaning) :
    ReplacesPart m m' (.object (front ++ (name, m) :: rest) required additional)
      (.object (front ++ (name, m') :: rest) required additional)
  | additional (properties : List (String × Meaning)) (required : List String) :
    ReplacesPart m m' (.object properties required (some m)) (.object properties required (some m'))
  | types (front rest : List Meaning) :
    ReplacesPart m m' (.types (front ++ m :: rest)) (.types (front ++ m' :: rest))
  | union (front rest : List Meaning) (c : Combinator) :
    ReplacesPart m m' (.union c (front ++ m :: rest)) (.union c (front ++ m' :: rest))

/-- Somewhere in a meaning there is a change that types ignore. -/
inductive ChangesTo : Meaning → Meaning → Prop
  | here {m m' : Meaning} (h : IgnoredChange m m') : ChangesTo m m'
  | inside {m m' whole whole' : Meaning} (h : ChangesTo m m')
    (part : ReplacesPart m m' whole whole') : ChangesTo whole whole'

/-- The last name of a pointer is that of the model it leads to. -/
private theorem EndsIn.modelName_eq {pointer name : String} (h : EndsIn pointer name) :
    modelName pointer = name := by
  obtain ⟨hn, hp⟩ := h
  have hone : Text.pieces '/' name = [name] := Text.pieces_of_not_mem hn
  rcases hp with rfl | ⟨front, rfl⟩
  · rw [modelName, hone]
    rfl
  · have ha := Text.pieces_append '/' front name
    rw [hone] at ha
    rw [modelName, show "/" = String.singleton '/' from rfl, ha]
    simp

end Meaning

namespace TypeExpr

open Meaning

variable {l : Language} {m m' : Meaning}

/-! ## Members of a union -/

/-- How the union of members is spelled that are spelled in given ways. -/
def membersText (l : Language) (texts : List String) : String :=
  foldText l (texts.filter (!· == scalarWord l .null)).eraseDups
    (texts.any (· == scalarWord l .null))

private theorem typeOf_types (ms : List Meaning) :
    typeOf l (.types ms) = membersText l (ms.map (typeOf l)) := by
  have hn (m : Meaning) :
      isNullMember l (m, ofMeaning l m) = (typeOf l m == scalarWord l .null) := by
    rw [Bool.eq_iff_iff, isNullMember_ofMeaning_iff, beq_iff_eq, typeOf]
  have hz : ms.zip (ofMeanings l ms) = ms.map fun m ↦ (m, ofMeaning l m) := by
    rw [ofMeanings_eq_map, List.map_prod_left_eq_zip]
  change spell l (ofUnion l (ms.zip (ofMeanings l ms))) = _
  rw [spell_ofUnion, hz, membersText]
  simp only [List.filter_map, List.map_map, List.any_map, Function.comp_def, hn]
  rfl

/-- A member that is spelled as an earlier one makes no difference. -/
private theorem membersText_copied {text : String} {front : List String} (h : text ∈ front)
    (rest : List String) :
    membersText l (front ++ text :: rest) = membersText l (front ++ rest) := by
  have hc : (front ++ text :: rest).any (· == scalarWord l .null) =
      (front ++ rest).any (· == scalarWord l .null) := by
    rw [Bool.eq_iff_iff]
    simp only [List.any_eq_true, beq_iff_eq, exists_eq_right, List.mem_append, List.mem_cons]
    exact ⟨fun hm ↦ hm.elim .inl fun hm ↦ hm.elim (fun he ↦ .inl (he ▸ h)) .inr,
      fun hm ↦ hm.imp_right .inr⟩
  rw [membersText, membersText, hc, List.filter_append, List.filter_append, List.filter_cons]
  congr 1
  split
  · next hn => exact eraseDups_append_cons_of_mem (List.mem_filter.mpr ⟨h, hn⟩) _
  · rfl

/-- It makes no difference where `null` stands among the members. -/
private theorem membersText_moved (front rest : List String) :
    membersText l (front ++ scalarWord l .null :: rest) =
      membersText l (scalarWord l .null :: (front ++ rest)) := by
  simp [membersText, List.filter_append]

/-- It makes no difference whether `null` stands there once or more often. -/
private theorem membersText_repeated {texts : List String} (h : scalarWord l .null ∈ texts) :
    membersText l (scalarWord l .null :: texts) = membersText l texts := by
  have ha : texts.any (· == scalarWord l .null) = true :=
    List.any_eq_true.mpr ⟨_, h, beq_self_eq_true _⟩
  simp [membersText, ha]

/-- What is nothing but `null` is spelled so. -/
private theorem typeOf_of_onlyNull (h : OnlyNull m) : typeOf l m = scalarWord l .null := by
  -- members that are all spelled so leave no other
  have members {m : Meaning} {ms : List Meaning}
      (h : ∀ n ∈ m :: ms, typeOf l n = scalarWord l .null) :
      typeOf l (.types (m :: ms)) = scalarWord l .null := by
    have hr : (m :: ms).map (typeOf l) =
        List.replicate (ms.length + 1) (scalarWord l .null) :=
      List.eq_replicate_iff.mpr ⟨by simp, by simpa using h⟩
    rw [typeOf_types, hr, membersText, List.filter_replicate]
    simp [foldText]
  induction h with
  | literal h => exact spell_ofMeaning_of_isNull h
  | types _ ih => exact members ih
  | union c _ ih => exact members ih

private theorem typeOf_types_of_rearrangesTo {ms ms' : List Meaning} (h : RearrangesTo ms ms') :
    typeOf l (.types ms) = typeOf l (.types ms') := by
  rw [typeOf_types, typeOf_types]
  induction h with
  | copied front rest h =>
    simp only [List.map_append, List.map_cons, membersText_copied (List.mem_map_of_mem h)]
  | @repeated m n front rest h hm hn =>
    have hw : scalarWord l .null ∈ front.map (typeOf l) ++ rest.map (typeOf l) := by
      rw [← List.map_append, ← typeOf_of_onlyNull hm]
      exact List.mem_map_of_mem h
    simp only [List.map_append, List.map_cons, typeOf_of_onlyNull hn, membersText_moved,
      membersText_repeated hw]
  | moved front between rest hn =>
    simp only [List.map_append, List.map_cons, typeOf_of_onlyNull hn, membersText_moved]
    rw [List.append_assoc]

/-! ## Changes anywhere -/

private theorem typeOf_eq_of_ignoredChange (h : IgnoredChange m m') : typeOf l m = typeOf l m' := by
  induction h with
  | pointer hp hq =>
    change spell l (.model _) = spell l (.model _)
    rw [hp.modelName_eq, hq.modelName_eq]
  | combinator => rfl
  | composition => rfl
  | properties => rfl
  | items => rfl
  | flag => rfl
  | types h => exact typeOf_types_of_rearrangesTo h
  | union _ h => exact typeOf_types_of_rearrangesTo h

/-- A type is spelled alike if a part of the meaning is replaced by one that is. -/
private theorem typeOf_eq_of_replacesPart {whole whole' : Meaning}
    (part : ReplacesPart m m' whole whole') (h : typeOf l m = typeOf l m') :
    typeOf l whole = typeOf l whole' := by
  have members (front rest : List Meaning) :
      (front ++ m :: rest).map (typeOf l) = (front ++ m' :: rest).map (typeOf l) := by
    rw [List.map_append, List.map_append, List.map_cons, List.map_cons, h]
  have union (front rest : List Meaning) :
      typeOf l (.types (front ++ m :: rest)) = typeOf l (.types (front ++ m' :: rest)) := by
    rw [typeOf_types, typeOf_types, members]
  induction part with
  | list distinct =>
    cases distinct with
    | false => exact spell_list_congr h
    | true => exact spell_set_congr h
  | tuple front rest items distinct =>
    change spell l (.tuple (ofMeanings l _)) = spell l (.tuple (ofMeanings l _))
    rw [spell_tuple, spell_tuple, ofMeanings_eq_map, ofMeanings_eq_map, List.map_map, List.map_map]
    exact congrArg _ (members front rest)
  | items => rfl
  | property => rfl
  | additional => exact spell_map_congr h
  | types front rest => exact union front rest
  | union front rest => exact union front rest

private theorem typeOf_eq_of_changesTo (h : ChangesTo m m') : typeOf l m = typeOf l m' := by
  induction h with
  | here h => exact typeOf_eq_of_ignoredChange h
  | inside _ part ih => exact typeOf_eq_of_replacesPart part ih

/-- However often a meaning is changed, back or forth and wherever, in ways that types ignore, its
type remains the same in every language. -/
theorem typeOf_eq_of_changes (h : Relation.EqvGen ChangesTo m m') (l : Language) :
    typeOf l m = typeOf l m' := by
  induction h with
  | rel _ _ h => exact typeOf_eq_of_changesTo h
  | refl _ => rfl
  | symm _ _ _ ih => exact ih.symm
  | trans _ _ _ _ _ ih ih' => exact ih.trans ih'

/-- Lists of points or of anything, with gaps. -/
def points : Meaning :=
  .list (some (.union .any [.ref "#/components/schemas/Point", .scalar .null, .flag true])) false

/-- The same in other words. -/
def samePoints : Meaning :=
  .list (some (.types [.ref "Point", .absent, .ref "Point", .scalar .null])) false

/-- One change at a time leads from the one spelling of the lists to the other. -/
theorem typeOf_eq_of_changes_points :
    Relation.EqvGen ChangesTo points samePoints ∧
      typeOf .python points = typeOf .python samePoints ∧
      typeOf .python samePoints = "list[Optional[Union[Point, Any]]]" := by
  have item {m m' : Meaning} (h : ChangesTo m m') :
      Relation.EqvGen ChangesTo (.list (some m) false) (.list (some m') false) :=
    .rel _ _ (.inside h (.list false))
  have long : EndsIn "#/components/schemas/Point" "Point" :=
    ⟨by decide, .inr ⟨"#/components/schemas", rfl⟩⟩
  have short : EndsIn "Point" "Point" := ⟨by decide, .inl rfl⟩
  have pointer := item (.inside (.here (.pointer long short))
    (.union [] [.scalar .null, .flag true] .any))
  have flag := item (.inside (.here (.flag true)) (.union [.ref "Point", .scalar .null] [] .any))
  have types := item (.here (.composition .any [.ref "Point", .scalar .null, .absent]))
  have null : OnlyNull (.scalar .null) := .literal rfl
  have moved := item (.here (.types (.moved [.ref "Point"] [.absent] [] null)))
  have copied := item (.here (.types (.copied [.ref "Point", .absent] [.scalar .null] (.head _))))
  have h : Relation.EqvGen ChangesTo points samePoints :=
    ((((pointer.trans _ _ _ flag).trans _ _ _ types).trans _ _ _ moved).trans _ _ _ copied)
  exact ⟨h, typeOf_eq_of_changes h .python, by decide⟩

end TypeExpr

end RpcForge

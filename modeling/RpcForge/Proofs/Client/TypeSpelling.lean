import RpcForge.Proofs.Client.LiteralSpelling
import RpcForge.Proofs.Client.TypeUnambiguous

/-!
# Trees as they are spelled

A tree of a type has one spelling. It reads back as that tree if the spellings of its parts read
back as the parts, so that trees with the same spelling are the same. In TypeScript this rests on
how a list is spelled: brackets stand only behind a text without a bar, and such a text is no union.
-/

namespace RpcForge

/-- How a value is spelled as a literal. -/
def LiteralTree.spell : LiteralTree → String
  | .truth true => "True"
  | .truth false => "False"
  | .numeral digits => digits
  | .text content => RpcForge.Text.quote content

/-! ## Spellings from the spellings of parts -/

namespace TypeExpr

variable {l : Language}

private theorem pythonAll_eq_map (ts : List TypeExpr) : pythonAll ts = ts.map (spell .python) := by
  induction ts with
  | nil => rfl
  | cons t ts ih =>
    rw [pythonAll, ih]
    rfl

private theorem typeScriptAll_eq_map (ts : List TypeExpr) :
    typeScriptAll ts = ts.map (spell .typeScript) := by
  induction ts with
  | nil => rfl
  | cons t ts ih =>
    rw [typeScriptAll, ih]
    rfl

/-- How a fixed number of items is spelled, if they are spelled in given ways. -/
def tupleText : Language → List String → String
  | .python, [] => "tuple[()]"
  | .python, texts => "tuple[" ++ ", ".intercalate texts ++ "]"
  | .typeScript, texts => "[" ++ ", ".intercalate texts ++ "]"

/-- How several alternatives are spelled, if they are spelled in given ways. -/
def severalText : Language → List String → String
  | .python, texts => "Union[" ++ ", ".intercalate texts ++ "]"
  | .typeScript, texts => " | ".intercalate texts

/-- How alternatives are spelled; a single one stands for itself. -/
def unionText (l : Language) : List String → String
  | [text] => text
  | texts => severalText l texts

/-- How a type that may be `null` is spelled, if without that it is spelled in a given way. -/
def nullableText : Language → String → String
  | .python, text => "Optional[" ++ text ++ "]"
  | .typeScript, text => text ++ " | null"

/-- How the union of different types is spelled, with or without `null`. -/
def foldText (l : Language) : List String → Bool → String
  | [], true => scalarWord l .null
  | [], false => anyWord l
  | text :: texts, true => nullableText l (unionText l (text :: texts))
  | text :: texts, false => unionText l (text :: texts)

theorem spell_tuple (ts : List TypeExpr) :
    spell l (.tuple ts) = tupleText l (ts.map (spell l)) := by
  cases l with
  | python =>
    cases ts with
    | nil => rfl
    | cons t ts =>
      rw [← pythonAll_eq_map]
      rfl
  | typeScript =>
    rw [← typeScriptAll_eq_map]
    rfl

theorem spell_union (ts : List TypeExpr) :
    spell l (.union ts) = severalText l (ts.map (spell l)) := by
  cases l with
  | python =>
    rw [← pythonAll_eq_map]
    rfl
  | typeScript =>
    rw [← typeScriptAll_eq_map]
    rfl

theorem spell_nullable (t : TypeExpr) : spell l (.nullable t) = nullableText l (spell l t) := by
  cases l <;> rfl

/-- Sets are spelled alike if what they hold is. -/
theorem spell_set_congr {t u : TypeExpr} (h : spell l t = spell l u) :
    spell l (.set t) = spell l (.set u) := by
  cases l with
  | python => exact congrArg (fun text ↦ "set[" ++ text ++ "]") h
  | typeScript => exact congrArg (fun text ↦ "Set<" ++ text ++ ">") h

/-- Lists are spelled alike if what they hold is. -/
theorem spell_list_congr {t u : TypeExpr} (h : spell l t = spell l u) :
    spell l (.list t) = spell l (.list u) := by
  cases l with
  | python => exact congrArg (fun text ↦ "list[" ++ text ++ "]") h
  | typeScript => exact congrArg typeScriptList h

/-- Values under text keys are spelled alike if one of them is. -/
theorem spell_map_congr {t u : TypeExpr} (h : spell l t = spell l u) :
    spell l (.map t) = spell l (.map u) := by
  cases l with
  | python => exact congrArg (fun text ↦ "dict[str, " ++ text ++ "]") h
  | typeScript => exact congrArg typeScriptMap h

private theorem unionText_typeScript (texts : List String) :
    unionText .typeScript texts = " | ".intercalate texts := by
  cases texts with
  | nil => rfl
  | cons text texts =>
    cases texts with
    | nil => rw [unionText, String.intercalate_singleton]
    | cons _ _ => rfl

end TypeExpr

namespace TypeTree

open TypeGrammar

mutual

/-- A type that says what a tree says. -/
def toExpr : TypeTree → TypeExpr
  | .word name => .word name
  | .model name => .model name
  | .literal value => .word ("Literal[" ++ value.spell ++ "]")
  | .tuple members => .tuple (toExprs members)
  | .set item => .set (toExpr item)
  | .list item => .list (toExpr item)
  | .map value => .map (toExpr value)
  | .union members => .union (toExprs members)
  | .nullable inner => .nullable (toExpr inner)

/-- Types that say what trees say. -/
def toExprs : List TypeTree → List TypeExpr
  | [] => []
  | t :: ts => toExpr t :: toExprs ts

end

/-- How a tree is spelled in a target language. -/
def spell (l : Language) (t : TypeTree) : String :=
  TypeExpr.spell l t.toExpr

/-- The spelling of a tree reads back as the tree. -/
def Spellable (l : Language) (t : TypeTree) : Prop :=
  Reads l t (t.spell l).toList

private theorem toExprs_eq_map (ts : List TypeTree) : toExprs ts = ts.map toExpr := by
  induction ts with
  | nil => rfl
  | cons t ts ih => rw [toExprs, ih, List.map_cons]

private theorem map_spell_toExprs (l : Language) (ts : List TypeTree) :
    (toExprs ts).map (TypeExpr.spell l) = ts.map (spell l) := by
  rw [toExprs_eq_map, List.map_map]
  rfl

theorem spell_tuple (l : Language) (ts : List TypeTree) :
    (tuple ts).spell l = TypeExpr.tupleText l (ts.map (spell l)) := by
  rw [spell, toExpr, TypeExpr.spell_tuple, map_spell_toExprs]

theorem spell_union (l : Language) (ts : List TypeTree) :
    (union ts).spell l = TypeExpr.severalText l (ts.map (spell l)) := by
  rw [spell, toExpr, TypeExpr.spell_union, map_spell_toExprs]

theorem spell_nullable (l : Language) (t : TypeTree) :
    (nullable t).spell l = TypeExpr.nullableText l (t.spell l) := by
  rw [spell, toExpr, TypeExpr.spell_nullable, spell]

private theorem ofAlternatives_singleton (t : TypeTree) : ofAlternatives [t] = t :=
  rfl

private theorem ofAlternatives_cons_cons (t u : TypeTree) (ts : List TypeTree) :
    ofAlternatives (t :: u :: ts) = .union (t :: u :: ts) :=
  rfl

/-- Trees with the same spelling are the same. -/
theorem Spellable.eq_of_spell_eq {l : Language} {a b : TypeTree} (ha : Spellable l a)
    (hb : Spellable l b) (h : a.spell l = b.spell l) : a = b := by
  rw [Spellable, h] at ha
  exact Reads.unique ha hb

end TypeTree

namespace TypeGrammar

/-! ## Lists of elements -/

section Lists

variable {α β : Type} {sign : List Char} {R : α → List Char → Prop}

theorem Separated.ne_nil {as : List α} {s : List Char} (h : Separated sign R as s) : as ≠ [] := by
  cases h <;> exact List.cons_ne_nil _ _

private theorem Separated.append {as bs : List α} {s t : List Char} (hs : Separated sign R as s)
    (ht : Separated sign R bs t) : Separated sign R (as ++ bs) (s ++ (sign ++ t)) := by
  induction hs with
  | one h => exact .more h ht
  | more h _ ih =>
    rw [List.append_assoc, List.append_assoc]
    exact .more h ih

/-- Lists of elements one behind the other, with the sign between them too. -/
private theorem separated_flatMap (sign : String) {bs : List β} {f : β → List α} {g : β → String}
    (hb : bs ≠ []) (h : ∀ b ∈ bs, Separated sign.toList R (f b) (g b).toList) :
    Separated sign.toList R (bs.flatMap f) (sign.intercalate (bs.map g)).toList := by
  induction bs with
  | nil => exact absurd rfl hb
  | cons b bs ih =>
    have h₁ := h b (.head _)
    cases bs with
    | nil => simpa using h₁
    | cons c cs =>
      have h₂ := ih (List.cons_ne_nil c cs) fun d hd ↦ h d (.tail _ hd)
      rw [List.flatMap_cons, List.map_cons,
        String.intercalate_cons_of_ne_nil (by rw [List.map_cons]; exact List.cons_ne_nil _ _),
        String.toList_append, String.toList_append, List.append_assoc]
      exact h₁.append h₂

/-- Elements with the sign between each and the next one. -/
private theorem separated_intercalate (sign : String) {as : List α} {g : α → String} (ha : as ≠ [])
    (h : ∀ a ∈ as, R a (g a).toList) :
    Separated sign.toList R as (sign.intercalate (as.map g)).toList := by
  have hs : Separated sign.toList R (as.flatMap fun a ↦ [a]) (sign.intercalate (as.map g)).toList :=
    separated_flatMap sign ha fun a hm ↦ .one (h a hm)
  rwa [List.flatMap_singleton'] at hs

end Lists

/-! ## Names -/

private theorem isName_of_mem_builtinNames {l : Language} {name : String}
    (h : name ∈ TypeTree.builtinNames l) : IsName name.toList := by
  have hb : ∀ name ∈ TypeTree.builtinNames l, IsName name.toList := by
    cases l <;> decide
  exact hb name h

private theorem named_of_mem {l : Language} {name : String} (h : name ∈ TypeTree.builtinNames l) :
    named l name.toList = .word name := by
  rw [named, String.ofList_toList, if_pos h]

private theorem named_of_not_mem {l : Language} {name : String}
    (h : name ∉ TypeTree.builtinNames l) :
    named l name.toList = .model name := by
  rw [named, String.ofList_toList, if_neg h]

/-! ## Python -/

namespace Python

/-- A name with a text in brackets behind it. -/
private theorem Inside.reads {head : Head} {t : TypeTree} {inside : String} (name : String)
    (hn : name.toList = head.text ++ ['[']) (h : Inside head t inside.toList) :
    Reads t (name ++ inside ++ "]").toList := by
  have hs := Reads.subscript h
  rw [String.toList_append, String.toList_append, hn, List.append_assoc, List.append_assoc]
  exact hs

end Python

namespace TypeScript

private theorem reads_of_suffixed {t : TypeTree} {s : List Char} (h : Suffixed t s) : Reads t s :=
  .mk (.one h)

private theorem suffixed_of_primary {t : TypeTree} {s : List Char} (h : Primary t s) :
    Suffixed t s := by
  have hs := Suffixed.mk h 0
  rwa [brackets, List.replicate_zero, List.flatten_nil, List.append_nil] at hs

private theorem reads_of_primary {t : TypeTree} {s : List Char} (h : Primary t s) : Reads t s :=
  reads_of_suffixed (suffixed_of_primary h)

/-- A name with a text as its arguments. -/
private theorem Arguments.reads {head : Head} {t : TypeTree} {inside : String} (name : String)
    (hn : name.toList = head.text ++ ['<']) (h : Arguments head t inside.toList) :
    Reads t (name ++ inside ++ ">").toList := by
  have hs := Primary.generic h
  rw [String.toList_append, String.toList_append, hn, List.append_assoc, List.append_assoc]
  exact reads_of_primary hs

/-- One more pair of brackets makes a list. -/
theorem Suffixed.list {t : TypeTree} {s : List Char} (h : Suffixed t s) :
    Suffixed (.list t) (s ++ ['[', ']']) := by
  obtain ⟨h, n⟩ := h
  have hs := Suffixed.mk h (n + 1)
  rwa [brackets, List.replicate_succ', List.flatten_concat, ← List.append_assoc] at hs

/-- A text without a bar spells no union. -/
private theorem Reads.suffixed {t : TypeTree} {s : List Char} (h : Reads t s) (hb : '|' ∉ s) :
    Suffixed t s := by
  obtain ⟨h⟩ := h
  cases h with
  | one h => exact h
  | more _ _ => simp [bar] at hb

/-- What brackets may be added to is no union. -/
theorem Suffixed.alternatives {t : TypeTree} {s : List Char} (h : Suffixed t s) :
    t.alternatives = [t] := by
  obtain ⟨h, n⟩ := h
  cases n with
  | succ n => rfl
  | zero =>
    rw [Nat.repeat]
    cases h with
    | name _ _ =>
      rw [named]
      split <;> rfl
    | object => rfl
    | unit => rfl
    | tuple _ => rfl
    | generic h => cases h <;> rfl

/-- A type is read as its alternatives. -/
theorem Reads.separated {t : TypeTree} {s : List Char} (h : Reads t s) :
    Separated bar Suffixed t.alternatives s := by
  obtain ⟨h⟩ := h
  cases h with
  | one h =>
    rw [TypeTree.ofAlternatives_singleton, h.alternatives]
    exact .one h
  | more h hr =>
    obtain ⟨b, bs, rfl⟩ := List.exists_cons_of_ne_nil hr.ne_nil
    exact .more h hr

end TypeScript

end TypeGrammar

/-! ## Spellings of each form -/

namespace TypeTree

open TypeGrammar

variable {l : Language}

theorem spellable_model {name : String} (h : IsModelName l name) :
    Spellable l (.model name) := by
  obtain ⟨hn, hb⟩ := h
  have he := named_of_not_mem hb
  cases l with
  | python =>
    have h := Python.Reads.name hn
    rwa [he] at h
  | typeScript =>
    have ho : name.toList ≠ TypeScript.objectName := by
      intro ho
      rw [String.toList_inj.mp ho] at hb
      exact hb (by decide)
    have h := TypeScript.reads_of_primary (.name hn ho)
    rwa [he] at h

private theorem spellable_word {name : String} (hb : name ∈ builtinNames l) (ho : name ≠ "object") :
    Spellable l (.word name) := by
  have hn := isName_of_mem_builtinNames hb
  have he := named_of_mem hb
  cases l with
  | python =>
    have h := Python.Reads.name hn
    rwa [he] at h
  | typeScript =>
    have h := TypeScript.reads_of_primary (.name hn fun h ↦ ho (String.toList_inj.mp h))
    rwa [he] at h

theorem spellable_any : Spellable l (any l) := by
  cases l
  · exact spellable_word (by decide) (by decide)
  · exact spellable_word (by decide) (by decide)

theorem spellable_scalarWord (kind : Scalar) :
    Spellable l (.word (TypeExpr.scalarWord l kind)) := by
  cases l <;> cases kind <;> exact spellable_word (by decide) (by decide)

theorem spellable_formatWord (format : StringFormat) :
    Spellable l (.word (TypeExpr.formatWord l format)) := by
  cases l <;> cases format <;> exact spellable_word (by decide) (by decide)

theorem spellable_null : Spellable l (null l) :=
  spellable_scalarWord .null

theorem spellable_literal {value : LiteralTree} (h : ReadsLiteral value value.spell.toList) :
    Spellable .python (.literal value) :=
  Python.Inside.reads _ rfl (.literal h)

theorem Spellable.set {t : TypeTree} (h : Spellable l t) : Spellable l (.set t) := by
  cases l with
  | python => exact Python.Inside.reads _ rfl (.set h)
  | typeScript => exact TypeScript.Arguments.reads _ rfl (.set h)

theorem Spellable.list {t : TypeTree} (h : Spellable l t) : Spellable l (.list t) := by
  cases l with
  | python => exact Python.Inside.reads _ rfl (.list h)
  | typeScript =>
    change TypeScript.Reads _ (TypeExpr.typeScriptList (spell .typeScript t)).toList
    rw [TypeExpr.typeScriptList, Text.hasChar]
    split
    · exact TypeScript.Arguments.reads _ rfl (.array h)
    · next hb =>
      rw [String.toList_append]
      exact TypeScript.reads_of_suffixed (TypeScript.Reads.suffixed h (by simpa using hb)).list

theorem Spellable.map {t : TypeTree} (h : Spellable l t) : Spellable l (.map t) := by
  cases l with
  | python =>
    have hd : Python.Inside .dict (.map t) ("str, " ++ spell .python t).toList := by
      rw [String.toList_append]
      exact .dict h
    have hs := Python.Inside.reads "dict[" rfl hd
    rwa [← String.append_assoc] at hs
  | typeScript =>
    change TypeScript.Reads _ (TypeExpr.typeScriptMap (spell .typeScript t)).toList
    rw [TypeExpr.typeScriptMap]
    split
    · next ha =>
      rw [h.eq_of_spell_eq spellable_any ha]
      exact TypeScript.reads_of_primary .object
    · have hd : TypeScript.Arguments .record (.map t)
          ("string, " ++ spell .typeScript t).toList := by
        rw [String.toList_append]
        exact .record h
      have hs := TypeScript.Arguments.reads "Record<" rfl hd
      rwa [← String.append_assoc] at hs

theorem Spellable.tuple {ts : List TypeTree} (h : ∀ t ∈ ts, Spellable l t) :
    Spellable l (.tuple ts) := by
  rw [Spellable, spell_tuple]
  cases l with
  | python =>
    cases ts with
    | nil =>
      have hs : Python.Inside .tuple (.tuple []) "()".toList := .unit
      exact Python.Inside.reads "tuple[" rfl hs
    | cons t ts =>
      exact Python.Inside.reads _ rfl
        (.tuple (separated_intercalate ", " (List.cons_ne_nil t ts) h))
  | typeScript =>
    apply TypeScript.reads_of_primary
    rw [TypeExpr.tupleText, String.toList_append, String.toList_append]
    by_cases ht : ts = []
    · subst ht
      exact .unit
    · exact .tuple (separated_intercalate ", " ht h)

/-! ## Unions -/

/-- Lists of texts one behind the other, with the sign between them too. -/
private theorem intercalate_flatMap {α : Type} (sign : String) {as : List α} {f : α → List String}
    (h : ∀ a ∈ as, f a ≠ []) :
    sign.intercalate (as.flatMap f) = sign.intercalate (as.map fun a ↦ sign.intercalate (f a)) := by
  induction as with
  | nil => rfl
  | cons a as ih =>
    have ih := ih fun b hb ↦ h b (.tail _ hb)
    cases as with
    | nil => simp
    | cons b bs =>
      have hb : (b :: bs).flatMap f ≠ [] := by
        rw [List.flatMap_cons]
        exact List.append_ne_nil_of_left_ne_nil (h b (.tail _ (.head _))) _
      rw [List.flatMap_cons, List.map_cons,
        String.intercalate_append_of_ne_nil (h a (.head _)) hb, ih,
        String.intercalate_cons_of_ne_nil (by rw [List.map_cons]; exact List.cons_ne_nil _ _)]

private theorem spell_ofAlternatives (ts : List TypeTree) :
    (ofAlternatives ts).spell l = TypeExpr.unionText l (ts.map (spell l)) := by
  match ts with
  | [] => cases l <;> rfl
  | [t] => rfl
  | t :: u :: ts =>
    rw [ofAlternatives_cons_cons, spell_union]
    rfl

/-- A type of TypeScript is spelled as its alternatives. -/
private theorem spell_typeScript (t : TypeTree) :
    t.spell .typeScript = " | ".intercalate (t.alternatives.map (spell .typeScript)) := by
  cases t with
  | union ts => exact spell_union .typeScript ts
  | _ => exact String.intercalate_singleton.symm

/-- The alternatives of several types are spelled as the types. -/
private theorem intercalate_alternatives {ts : List TypeTree}
    (h : ∀ t ∈ ts, Spellable .typeScript t) :
    " | ".intercalate ((ts.flatMap alternatives).map (spell .typeScript)) =
      " | ".intercalate (ts.map (spell .typeScript)) := by
  have hn : ∀ t ∈ ts, t.alternatives.map (spell .typeScript) ≠ [] := by
    intro t ht
    rw [ne_eq, List.map_eq_nil_iff]
    exact (TypeScript.Reads.separated (h t ht)).ne_nil
  rw [List.map_flatMap, intercalate_flatMap _ hn]
  simp only [← spell_typeScript]

/-- Alternatives that are read one by one are read together. -/
private theorem ofAlternatives_spells {ts : List TypeTree} {text : String}
    (hs : Separated bar TypeScript.Suffixed ts text.toList)
    (ht : " | ".intercalate (ts.map (spell .typeScript)) = text) :
    (ofAlternatives ts).spell .typeScript = text ∧ Spellable .typeScript (ofAlternatives ts) := by
  have he : (ofAlternatives ts).spell .typeScript = text := by
    rw [spell_ofAlternatives, TypeExpr.unionText_typeScript, ht]
  refine ⟨he, ?_⟩
  rw [Spellable, he]
  exact .mk hs

theorem Spellable.union {ts : List TypeTree} (ht : ts ≠ []) (h : ∀ t ∈ ts, Spellable .python t) :
    Spellable .python (ofAlternatives ts) := by
  match ts with
  | [] => exact absurd rfl ht
  | [t] => exact h t (.head _)
  | t :: u :: ts =>
    rw [ofAlternatives_cons_cons, Spellable, spell_union]
    exact Python.Inside.reads _ rfl (.union (separated_intercalate ", " ht h))

theorem Spellable.nullable {t : TypeTree} (h : Spellable .python t) :
    Spellable .python (.nullable t) :=
  Python.Inside.reads _ rfl (.optional h)

/-- In Python `null` stands around the union of the other types. -/
private theorem fold_spells_python {ts : List TypeTree} (ht : ts ≠ [])
    (h : ∀ t ∈ ts, Spellable .python t) (nullable : Bool) :
    (fold .python ts nullable).spell .python =
        TypeExpr.foldText .python (ts.map (spell .python)) nullable ∧
      Spellable .python (fold .python ts nullable) := by
  obtain ⟨t, ts, rfl⟩ := List.exists_cons_of_ne_nil ht
  have hs := Spellable.union ht h
  have he := spell_ofAlternatives (l := .python) (t :: ts)
  cases nullable with
  | false => exact ⟨he, hs⟩
  | true =>
    refine ⟨?_, hs.nullable⟩
    change (nullable _).spell _ = _
    rw [spell_nullable, he]
    rfl

/-- In TypeScript `null` is one more alternative. -/
private theorem fold_spells_typeScript {ts : List TypeTree} (ht : ts ≠ [])
    (h : ∀ t ∈ ts, Spellable .typeScript t) (nullable : Bool) :
    (fold .typeScript ts nullable).spell .typeScript =
        TypeExpr.foldText .typeScript (ts.map (spell .typeScript)) nullable ∧
      Spellable .typeScript (fold .typeScript ts nullable) := by
  have hs : Separated bar TypeScript.Suffixed (ts.flatMap alternatives)
      (" | ".intercalate (ts.map (spell .typeScript))).toList :=
    separated_flatMap " | " ht fun u hu ↦ TypeScript.Reads.separated (h u hu)
  have he := intercalate_alternatives h
  obtain ⟨t, ts, rfl⟩ := List.exists_cons_of_ne_nil ht
  cases nullable with
  | false =>
    rw [List.map_cons, TypeExpr.foldText, TypeExpr.unionText_typeScript]
    exact ofAlternatives_spells hs he
  | true =>
    have hr : TypeScript.Reads (null .typeScript) "null".toList :=
      spellable_null (l := .typeScript)
    have hn : Separated bar TypeScript.Suffixed [null .typeScript] "null".toList :=
      .one (hr.suffixed (by decide))
    have hf : ((t :: ts).flatMap alternatives).map (spell .typeScript) ≠ [] := by
      rw [ne_eq, List.map_eq_nil_iff]
      exact hs.ne_nil
    rw [List.map_cons, TypeExpr.foldText, TypeExpr.unionText_typeScript, TypeExpr.nullableText,
      ← List.map_cons]
    apply ofAlternatives_spells
    · rw [String.toList_append]
      exact hs.append hn
    · rw [List.map_append, List.map_singleton,
        String.intercalate_append_of_ne_nil hf (List.cons_ne_nil _ _), he,
        String.intercalate_singleton, String.append_assoc]
      rfl

/-- The union of different types is spelled from their spellings, and reads back as the union. -/
theorem fold_spells {ts : List TypeTree} (h : ∀ t ∈ ts, Spellable l t) (nullable : Bool) :
    (fold l ts nullable).spell l = TypeExpr.foldText l (ts.map (spell l)) nullable ∧
      Spellable l (fold l ts nullable) := by
  cases ts with
  | nil =>
    cases nullable with
    | false => cases l <;> exact ⟨rfl, spellable_any⟩
    | true => cases l <;> exact ⟨rfl, spellable_null⟩
  | cons t ts =>
    cases l with
    | python => exact fold_spells_python (List.cons_ne_nil t ts) h nullable
    | typeScript => exact fold_spells_typeScript (List.cons_ne_nil t ts) h nullable

end TypeTree

end RpcForge

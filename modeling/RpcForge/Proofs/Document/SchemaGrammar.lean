import Mathlib.Logic.Relation
import RpcForge.Document.Schema.Codec
import RpcForge.Proofs.Document.NormalForm
import RpcForge.Proofs.Json.Spelling

/-!
# The grammar of places for schemas

What may stand in a place for a schema, said keyword by keyword and without regard to how values are
read: a truth value, or an object each of whose keywords holds what it is for. Just these values can
be read, so an unknown type name makes a value unreadable, however deep it lies.
-/

namespace RpcForge

open RpcForge.Json

namespace Schema

/-! ## The grammar -/

/-- What a keyword holds. -/
inductive KeywordForm where
  /-- A text. -/
  | text
  /-- A truth value. -/
  | flag
  /-- Any value, also `null`. -/
  | any
  /-- A list of values. -/
  | values
  /-- A list of texts. -/
  | texts
  /-- A type name or a list of them. -/
  | types
  /-- A place for a schema. -/
  | place
  /-- A list of places for schemas. -/
  | places
  /-- A place for a schema or a list of them. -/
  | placeOrPlaces
  /-- Places for schemas under names. -/
  | named
deriving DecidableEq, Repr

/-- The keywords that are declared, with what they hold. -/
def keywordForms : Entries KeywordForm :=
  [("$id", .text), ("$ref", .text), ("title", .text), ("description", .text), ("default", .any),
    ("examples", .values), ("type", .types), ("enum", .values), ("const", .any), ("format", .text),
    ("items", .placeOrPlaces), ("prefixItems", .places), ("uniqueItems", .flag),
    ("required", .texts), ("properties", .named), ("additionalProperties", .place),
    ("allOf", .places), ("anyOf", .places), ("oneOf", .places), ("definitions", .named),
    ("$defs", .named)]

/-- The names of types. -/
def typeNames : List String :=
  ["null", "boolean", "object", "array", "number", "string", "integer"]

mutual

/-- A value may stand in a place for a schema. -/
inductive IsPlace : Value → Prop
  /-- A truth value. -/
  | flag (b : Bool) : IsPlace (.bool b)
  /-- An object whose declared keywords hold what they are for; all others hold anything. -/
  | schema {members : Entries Value}
    (keywords : ∀ key v, (key, v) ∈ members → ∀ form, Entries.get? keywordForms key = some form →
      Holds form v) : IsPlace (.object members)

/-- A keyword of a form may hold a value. -/
inductive Holds : KeywordForm → Value → Prop
  /-- In all keywords `null` means that they are left out, or it is a value like any other. -/
  | null (form : KeywordForm) : Holds form .null
  /-- Any value. -/
  | any (v : Value) : Holds .any v
  /-- A text. -/
  | text (s : String) : Holds .text (.string s)
  /-- A truth value. -/
  | flag (b : Bool) : Holds .flag (.bool b)
  /-- A list of values. -/
  | values (vs : List Value) : Holds .values (.array vs)
  /-- A list of texts. -/
  | texts (texts : List String) : Holds .texts (.array (texts.map .string))
  /-- A type name. -/
  | typeName {name : String} (h : name ∈ typeNames) : Holds .types (.string name)
  /-- A list of type names. -/
  | typeNames {names : List String} (h : ∀ name ∈ names, name ∈ typeNames) :
    Holds .types (.array (names.map .string))
  /-- A place for a schema. -/
  | place {v : Value} (h : IsPlace v) : Holds .place v
  /-- A list of places for schemas. -/
  | places {vs : List Value} (h : ∀ v ∈ vs, IsPlace v) : Holds .places (.array vs)
  /-- A place for a schema where there could be a list. -/
  | onePlace {v : Value} (h : IsPlace v) : Holds .placeOrPlaces v
  /-- A list of places for schemas where there could be one. -/
  | manyPlaces {vs : List Value} (h : ∀ v ∈ vs, IsPlace v) : Holds .placeOrPlaces (.array vs)
  /-- Places for schemas under names. -/
  | named {members : Entries Value} (h : ∀ key v, (key, v) ∈ members → IsPlace v) :
    Holds .named (.object members)

end

/-- An object stands in a place for a schema of another object, each given by its members. -/
inductive SchemaIn (outer : Entries Value) : Entries Value → Prop
  /-- It is held by a keyword. -/
  | one {key : String} {form : KeywordForm} {inner : Entries Value}
    (hk : Entries.get? keywordForms key = some form) (hf : form = .place ∨ form = .placeOrPlaces)
    (h : (key, .object inner) ∈ outer) : SchemaIn outer inner
  /-- It stands in the list that a keyword holds. -/
  | listed {key : String} {form : KeywordForm} {vs : List Value} {inner : Entries Value}
    (hk : Entries.get? keywordForms key = some form) (hf : form = .places ∨ form = .placeOrPlaces)
    (h : (key, .array vs) ∈ outer) (hi : .object inner ∈ vs) : SchemaIn outer inner
  /-- It stands under a name in what a keyword holds. -/
  | named {key name : String} {members inner : Entries Value}
    (hk : Entries.get? keywordForms key = some .named) (h : (key, .object members) ∈ outer)
    (hi : (name, .object inner) ∈ members) : SchemaIn outer inner

/-- A value for the keyword for types has a text in it that is no type name. -/
inductive HasUnknownType : Value → Prop
  /-- It is such a text. -/
  | single {name : String} (h : name ∉ typeNames) : HasUnknownType (.string name)
  /-- It is a list with such a text. -/
  | several {vs : List Value} {name : String} (hm : .string name ∈ vs) (h : name ∉ typeNames) :
    HasUnknownType (.array vs)

/-! ## Fields -/

namespace KeywordForm

/-- Whether a keyword may be left out, and how its `null` counts. -/
def presence : KeywordForm → Presence
  | .any => .verbatim
  | _ => .optional

/-- What the value of a keyword has to look like. -/
def shape : KeywordForm → Shape Part
  | .text => .text
  | .flag => .flag
  | .any => .any
  | .values => .list .any
  | .texts => .list .text
  | .types => .whole .typeNames
  | .place => .whole .schemaPosition
  | .places => .list (.whole .schemaPosition)
  | .placeOrPlaces => .whole .items
  | .named => .map (.whole .schemaPosition)

end KeywordForm

private theorem fields_schema : Part.fields .schema =
    keywordForms.map fun entry ↦ ⟨entry.1, entry.2.presence, entry.2.shape⟩ := rfl

/-- The fields of a schema are the declared keywords. -/
private theorem field?_schema (key : String) : documentGrammar.field? .schema key =
    (Entries.get? keywordForms key).map fun form ↦ ⟨key, form.presence, form.shape⟩ := by
  change (Part.fields .schema).find? (·.key == key) = _
  rw [fields_schema]
  induction keywordForms with
  | nil => rfl
  | cons entry rest ih =>
    obtain ⟨k, form⟩ := entry
    by_cases he : k = key
    · subst he
      simp [Entries.get?]
    · have hne : key ≠ k := fun h ↦ he h.symm
      simpa [Entries.get?, List.lookup_cons, he, beq_eq_false_iff_ne.mpr hne] using ih

/-- Members under different keys are those of a schema if the values of its keywords have no fault
in their places. -/
private theorem fits_schema_iff {members : Entries Value}
    (distinct : (Entries.keys members).Nodup) :
    documentGrammar.Fits .schema [] members ↔
      ∀ key v, (key, v) ∈ members → ∀ form, Entries.get? keywordForms key = some form →
        documentGrammar.faultIn? form.shape (form.presence == .optional) v = none := by
  constructor
  · intro h key v hm form hf
    exact h.faultless key v hm _ (by rw [field?_schema, hf, Option.map_some])
  · intro h
    refine ⟨nofun, fun _ _ _ ↦ List.not_mem_nil, distinct.filter _, ?_, ?_⟩
    · intro key v hm field hf
      rw [field?_schema] at hf
      obtain ⟨form, hk, rfl⟩ := Option.map_eq_some_iff.mp hf
      exact h key v hm form hk
    · intro field hf hr
      change field ∈ Part.fields .schema at hf
      rw [fields_schema] at hf
      obtain ⟨entry, -, rfl⟩ := List.mem_map.mp hf
      cases he : entry.2 <;> simp [he, KeywordForm.presence] at hr

/-! ## Keywords without places -/

private theorem isSome_ofName?_iff (text : String) :
    (SchemaType.ofName? text).isSome = true ↔ text ∈ typeNames := by
  rw [SchemaType.ofName?, List.find?_isSome, show typeNames = SchemaType.all.map SchemaType.name
    from rfl, List.mem_map]
  simp only [beq_iff_eq]

theorem typeNameError?_eq_none_iff (v : Value) :
    Part.typeNameError? v = none ↔ ∃ name ∈ typeNames, .string name = v := by
  cases v with
  | string s =>
    rw [Part.typeNameError?]
    split
    · next h => exact iff_of_true rfl ⟨s, (isSome_ofName?_iff s).mp h, rfl⟩
    · next h =>
      refine iff_of_false nofun ?_
      rintro ⟨name, hn, he⟩
      obtain rfl := Value.string.inj he
      exact h ((isSome_ofName?_iff name).mpr hn)
  | _ => simp [Part.typeNameError?]

/-- Items that all come from texts come from a list of texts. -/
private theorem exists_map_string_eq {vs : List Value} {p : String → Prop}
    (h : ∀ v ∈ vs, ∃ s, p s ∧ .string s = v) :
    ∃ texts : List String, (∀ s ∈ texts, p s) ∧ texts.map .string = vs := by
  induction vs with
  | nil => exact ⟨[], nofun, rfl⟩
  | cons v vs ih =>
    obtain ⟨⟨s, hs, rfl⟩, hvs⟩ := List.forall_mem_cons.mp h
    obtain ⟨texts, ht, rfl⟩ := ih hvs
    exact ⟨s :: texts, List.forall_mem_cons.mpr ⟨hs, ht⟩, rfl⟩

/-- The keyword for types has no fault where a shape is found for it. -/
private theorem error?_types_iff (v : Value) : documentGrammar.error? (.whole .typeNames) v = none ↔
    ∃ shape, Part.resolveTypeNames v = .ok shape := by
  constructor
  · exact Grammar.exists_settle
  · rintro ⟨shape, hs⟩
    obtain rfl := Part.resolveTypeNames_eq_ok hs
    exact (Grammar.error?_eq_none_iff _ _).mpr (.any hs)

private theorem error?_types_string_iff (name : String) :
    documentGrammar.error? (.whole .typeNames) (.string name) = none ↔ name ∈ typeNames := by
  rw [error?_types_iff, Part.resolveTypeNames, ← isSome_ofName?_iff, Part.typeNameError?]
  by_cases h : (SchemaType.ofName? name).isSome = true <;> simp [h]

private theorem error?_types_array_iff (vs : List Value) :
    documentGrammar.error? (.whole .typeNames) (.array vs) = none ↔
      ∀ v ∈ vs, ∃ name ∈ typeNames, .string name = v := by
  simp only [error?_types_iff, Part.resolveTypeNames, ← typeNameError?_eq_none_iff,
    ← List.findSome?_eq_none_iff]
  cases vs.findSome? Part.typeNameError? <;> simp

private theorem faultIn?_types_iff (v : Value) :
    documentGrammar.faultIn? (.whole .typeNames) true v = none ↔ Holds .types v := by
  cases v with
  | null => exact iff_of_true rfl (.null _)
  | string s =>
    refine (error?_types_string_iff s).trans ⟨.typeName, fun h ↦ ?_⟩
    cases h with
    | typeName hm => exact hm
  | array vs =>
    refine (error?_types_array_iff vs).trans ⟨fun h ↦ ?_, fun h w hw ↦ ?_⟩
    · obtain ⟨names, hm, rfl⟩ := exists_map_string_eq h
      exact .typeNames hm
    · cases h with
      | typeNames hm =>
        obtain ⟨name, hn, rfl⟩ := List.mem_map.mp hw
        exact ⟨name, hm name hn, rfl⟩
  | _ => exact iff_of_false nofun nofun

private theorem faultIn?_texts_iff (v : Value) :
    documentGrammar.faultIn? (.list .text) true v = none ↔ Holds .texts v := by
  cases v with
  | null => exact iff_of_true rfl (.null _)
  | array vs =>
    refine (Grammar.itemError?_eq_none_iff _ _).trans ⟨fun h ↦ ?_, ?_⟩
    · have ht (w : Value) (hw : w ∈ vs) : ∃ s, True ∧ .string s = w := by
        have he := h w hw
        cases w with
        | string s => exact ⟨s, trivial, rfl⟩
        | _ => cases he
      obtain ⟨texts, -, rfl⟩ := exists_map_string_eq ht
      exact .texts texts
    · rintro ⟨⟩ w hw
      obtain ⟨s, -, rfl⟩ := List.mem_map.mp hw
      rfl
  | _ => exact iff_of_false nofun nofun

/-! ## Keywords with places -/

section Places

variable {v : Value}

/-- What is read from values that are not larger than a given one is what the grammar says. -/
def PlacesUpTo (v : Value) : Prop :=
  ∀ w, sizeOf w ≤ sizeOf v → w.HasDistinctKeys →
    (documentGrammar.error? (.whole .schemaPosition) w = none ↔ IsPlace w)

theorem PlacesUpTo.item {vs : List Value} (places : PlacesUpTo (.array vs))
    (distinct : (Value.array vs).HasDistinctKeys) :
    documentGrammar.itemError? (.whole .schemaPosition) vs = none ↔ ∀ w ∈ vs, IsPlace w := by
  rw [Grammar.itemError?_eq_none_iff]
  exact forall₂_congr fun w hw ↦ places w (Nat.le_of_lt (Value.sizeOf_lt_array hw))
    ((Value.itemsHaveDistinctKeys_iff vs).mp distinct w hw)

theorem PlacesUpTo.member {members : Entries Value} (places : PlacesUpTo (.object members))
    (distinct : (Value.object members).HasDistinctKeys) :
    documentGrammar.memberError? (.whole .schemaPosition) members = none ↔
      ∀ key w, (key, w) ∈ members → IsPlace w := by
  rw [Grammar.memberError?_eq_none_iff, Prod.forall]
  exact forall₃_congr fun key w hm ↦ places w (Nat.le_of_lt (Value.sizeOf_lt_object hm))
    ((Value.membersHaveDistinctKeys_iff members).mp distinct.2 key w hm)

theorem PlacesUpTo.place (places : PlacesUpTo v) (distinct : v.HasDistinctKeys) :
    documentGrammar.faultIn? (.whole .schemaPosition) true v = none ↔ Holds .place v := by
  cases v with
  | null => exact iff_of_true rfl (.null _)
  | _ =>
    refine (places _ (Nat.le_refl _) distinct).trans ⟨.place, fun h ↦ ?_⟩
    cases h with
    | place h => exact h

theorem PlacesUpTo.places (places : PlacesUpTo v) (distinct : v.HasDistinctKeys) :
    documentGrammar.faultIn? (.list (.whole .schemaPosition)) true v = none ↔
      Holds .places v := by
  cases v with
  | null => exact iff_of_true rfl (.null _)
  | array vs =>
    refine (places.item distinct).trans ⟨.places, fun h ↦ ?_⟩
    cases h with
    | places h => exact h
  | _ => exact iff_of_false nofun nofun

private theorem PlacesUpTo.placeOrPlaces (places : PlacesUpTo v) (distinct : v.HasDistinctKeys) :
    documentGrammar.faultIn? (.whole .items) true v = none ↔ Holds .placeOrPlaces v := by
  cases v with
  | null => exact iff_of_true rfl (.null _)
  | array vs =>
    refine (places.item distinct).trans ⟨.manyPlaces, fun h ↦ ?_⟩
    cases h with
    | onePlace h => cases h
    | manyPlaces h => exact h
  | _ =>
    refine (places _ (Nat.le_refl _) distinct).trans ⟨.onePlace, fun h ↦ ?_⟩
    cases h with
    | onePlace h => exact h

theorem PlacesUpTo.named (places : PlacesUpTo v) (distinct : v.HasDistinctKeys) :
    documentGrammar.faultIn? (.map (.whole .schemaPosition)) true v = none ↔ Holds .named v := by
  cases v with
  | null => exact iff_of_true rfl (.null _)
  | object members =>
    refine (places.member distinct).trans ⟨.named, fun h ↦ ?_⟩
    cases h with
    | named h => exact h
  | _ => exact iff_of_false nofun nofun

/-- A keyword has no fault exactly if it holds what it is for. -/
theorem PlacesUpTo.holds (places : PlacesUpTo v) (distinct : v.HasDistinctKeys)
    (form : KeywordForm) :
    documentGrammar.faultIn? form.shape (form.presence == .optional) v = none ↔ Holds form v := by
  cases form with
  | any => exact iff_of_true (Grammar.error?_any v) (.any v)
  | text =>
    cases v with
    | null => exact iff_of_true rfl (.null _)
    | string s => exact iff_of_true rfl (.text s)
    | _ => exact iff_of_false nofun nofun
  | flag =>
    cases v with
    | null => exact iff_of_true rfl (.null _)
    | bool b => exact iff_of_true rfl (.flag b)
    | _ => exact iff_of_false nofun nofun
  | values =>
    cases v with
    | null => exact iff_of_true rfl (.null _)
    | array vs =>
      refine iff_of_true ?_ (.values vs)
      exact (Grammar.itemError?_eq_none_iff _ _).mpr fun w _ ↦ Grammar.error?_any w
    | _ => exact iff_of_false nofun nofun
  | texts => exact faultIn?_texts_iff v
  | types => exact faultIn?_types_iff v
  | place => exact places.place distinct
  | places => exact places.places distinct
  | placeOrPlaces => exact places.placeOrPlaces distinct
  | named => exact places.named distinct

end Places

private theorem error?_position_below (n : Nat) : ∀ v : Value, sizeOf v < n → v.HasDistinctKeys →
    (documentGrammar.error? (.whole .schemaPosition) v = none ↔ IsPlace v) := by
  -- on the size, since a keyword can hold places inside of an array or an object
  induction n with
  | zero => exact fun _ hn ↦ absurd hn (Nat.not_lt_zero _)
  | succ n ih =>
    intro v hn distinct
    cases v with
    | bool b => exact iff_of_true rfl (.flag b)
    | object members =>
      have hk (key : String) (w : Value) (hm : (key, w) ∈ members) (form : KeywordForm) :
          documentGrammar.faultIn? form.shape (form.presence == .optional) w = none ↔
            Holds form w := by
        have hs : sizeOf w < sizeOf (Value.object members) := Value.sizeOf_lt_object hm
        have hd := (Value.membersHaveDistinctKeys_iff members).mp distinct.2 key w hm
        exact PlacesUpTo.holds (fun u hu ↦ ih u (by omega)) hd form
      refine ((Grammar.fieldError?_eq_none_iff _ _ _).trans (fits_schema_iff distinct.1)).trans ?_
      constructor
      · exact fun h ↦ .schema fun key w hm form hf ↦ (hk key w hm form).mp (h key w hm form hf)
      · intro h key w hm form hf
        cases h with
        | schema keywords => exact (hk key w hm form).mpr (keywords key w hm form hf)
    | _ => exact iff_of_false nofun nofun

/-- What can be read in a place for a schema is what may stand there. -/
private theorem exists_positionOfValue_iff (v : Value) (distinct : v.HasDistinctKeys) :
    (∃ p, positionOfValue v = .ok p) ↔ IsPlace v := by
  rw [← error?_position_below _ v (Nat.lt_succ_self _) distinct, positionOfValue, Part.decode]
  cases documentGrammar.error? (.whole .schemaPosition) v with
  | none => exact iff_of_true ⟨_, rfl⟩ rfl
  | some e => exact iff_of_false nofun nofun

/-! ## Schemas inside schemas -/

/-- An object stands in no schema unless it may stand in a place for one. -/
private theorem IsPlace.inner {outer inner : Entries Value} (h : IsPlace (.object outer))
    (hi : SchemaIn outer inner) : IsPlace (.object inner) := by
  cases h with
  | schema keywords =>
    cases hi with
    | one hk hf h =>
      have hh := keywords _ _ h _ hk
      rcases hf with rfl | rfl
      · cases hh with
        | place h => exact h
      · cases hh with
        | onePlace h => exact h
    | listed hk hf h hm =>
      have hh := keywords _ _ h _ hk
      rcases hf with rfl | rfl
      · cases hh with
        | places h => exact h _ hm
      · cases hh with
        | onePlace h => cases h
        | manyPlaces h => exact h _ hm
    | named hk h hm =>
      cases keywords _ _ h _ hk with
      | named h => exact h _ _ hm

private theorem IsPlace.deep {outer inner : Entries Value} (h : IsPlace (.object outer))
    (hi : Relation.ReflTransGen SchemaIn outer inner) : IsPlace (.object inner) := by
  induction hi with
  | refl => exact h
  | tail _ hs ih => exact ih.inner hs

private theorem not_holds_of_hasUnknownType {v : Value} (h : HasUnknownType v) :
    ¬Holds .types v := by
  intro hh
  cases h with
  | single hn =>
    cases hh with
    | typeName hm => exact hn hm
  | several hm hn =>
    cases hh with
    | typeNames hs =>
      obtain ⟨name, hname, he⟩ := List.mem_map.mp hm
      obtain rfl := Value.string.inj he
      exact hn (hs _ hname)

/-- The values that can be read in a place for a schema are the truth values and the objects whose
declared keywords hold what they are for, at every depth. A type that is unknown makes a value
unreadable wherever the schema is in which it stands. In a JSON value no object repeats a key. -/
theorem readable_iff_isPlace (v : Value) (distinct : v.HasDistinctKeys) :
    ((∃ p, positionOfValue v = .ok p) ↔ IsPlace v) ∧
      ∀ outer inner t, v = .object outer → Relation.ReflTransGen SchemaIn outer inner →
        ("type", t) ∈ inner → HasUnknownType t → ∃ e, positionOfValue v = .error e := by
  have hr := exists_positionOfValue_iff v distinct
  refine ⟨hr, ?_⟩
  rintro outer inner t rfl hi hm ht
  cases hp : positionOfValue (.object outer) with
  | error e => exact ⟨e, rfl⟩
  | ok p =>
    have hd := (hr.mp ⟨p, hp⟩).deep hi
    cases hd with
    | schema keywords => exact absurd (keywords _ _ hm .types rfl) (not_holds_of_hasUnknownType ht)

/-- A schema with a type under several keywords. -/
def typeInside (type : String) : Value :=
  .object [("const", .null), ("$defs", .object [("Part", .object [("allOf",
    .array [.bool true, .object [("items", .object [("type", .array [.string type])])]])])])]

/-- A type that is known may stand anywhere, another one nowhere. -/
theorem readable_typeInside :
    (typeInside "integer").HasDistinctKeys ∧ IsPlace (typeInside "integer") ∧
      (typeInside "decimal").HasDistinctKeys ∧
      ∃ e, positionOfValue (typeInside "decimal") = .error e := by
  have hd (type : String) : (typeInside type).HasDistinctKeys := by
    simp [typeInside, Value.HasDistinctKeys, Value.ItemsHaveDistinctKeys,
      Value.MembersHaveDistinctKeys, Entries.keys]
  refine ⟨hd _, (readable_iff_isPlace _ (hd _)).1.mp ⟨_, rfl⟩, hd _, ?_⟩
  refine (readable_iff_isPlace _ (hd _)).2 _ [("type", .array [.string "decimal"])] _ rfl ?_
    (.head _) (.several (.head _) (by decide))
  have hDefs : Entries.get? keywordForms "$defs" = some .named := rfl
  have hAllOf : Entries.get? keywordForms "allOf" = some .places := rfl
  have hItems : Entries.get? keywordForms "items" = some .placeOrPlaces := rfl
  refine .head (.named hDefs (.tail _ (.head _)) (.head _)) ?_
  refine .head (.listed hAllOf (.inl rfl) (.head _) (.tail _ (.head _))) ?_
  exact .single (.one hItems (.inr rfl) (.head _))

end Schema

end RpcForge

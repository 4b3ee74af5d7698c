import RpcForge.Package.TypeScriptModels
import RpcForge.Proofs.Client.Plan

/-!
# Conversions of models in TypeScript

A class is read from JSON by one expression for each property and written by another one. Here the
expressions are trees that are spelled as the class has them and that say what becomes of a value.
A Set that is still there when a class is written would be lost: it is written as `{}`.
-/

namespace RpcForge

/-! ## Values of TypeScript -/

/-- A value while a client runs. -/
inductive JsValue where
  /-- Nothing is given. -/
  | undefined
  /-- The literal `null`. -/
  | null
  /-- A truth value. -/
  | bool (b : Bool)
  /-- A finite number. -/
  | number (q : Rat)
  /-- A text. -/
  | text (s : String)
  /-- An array. -/
  | array (items : List JsValue)
  /-- An object without a class. -/
  | object (members : List (String × JsValue))
  /-- An object of the class of a model, made from data. -/
  | record (model : String) (data : JsValue)
  /-- A Set. -/
  | set (items : List JsValue)
deriving Inhabited

namespace JsValue

mutual

/-- Whether a value is what JSON is parsed to. -/
def isJson : JsValue → Bool
  | .null => true
  | .bool _ => true
  | .number _ => true
  | .text _ => true
  | .array items => allJson items
  | .object members => membersJson members
  | .undefined => false
  | .record _ _ => false
  | .set _ => false

/-- Whether all items are what JSON is parsed to. -/
def allJson : List JsValue → Bool
  | [] => true
  | v :: vs => isJson v && allJson vs

/-- Whether all members are what JSON is parsed to. -/
def membersJson : List (String × JsValue) → Bool
  | [] => true
  | (_, v) :: ms => isJson v && membersJson ms

end

mutual

/-- Whether there is a Set where a value is written as JSON. What an object of a class writes is up
to its class. -/
def holdsSet : JsValue → Bool
  | .set _ => true
  | .array items => anyHoldsSet items
  | .object members => memberHoldsSet members
  | .undefined => false
  | .null => false
  | .bool _ => false
  | .number _ => false
  | .text _ => false
  | .record _ _ => false

/-- Whether there is a Set in some item. -/
def anyHoldsSet : List JsValue → Bool
  | [] => false
  | v :: vs => holdsSet v || anyHoldsSet vs

/-- Whether there is a Set in some member. -/
def memberHoldsSet : List (String × JsValue) → Bool
  | [] => false
  | (_, v) :: ms => holdsSet v || memberHoldsSet ms

end

/-- Whether `v == null`. -/
def isNullish : JsValue → Bool
  | .undefined => true
  | .null => true
  | _ => false

/-- Whether two values count as one in a Set: objects only do if they are one object, and no object
is put into a Set twice. -/
def same : JsValue → JsValue → Bool
  | .undefined, .undefined => true
  | .null, .null => true
  | .bool a, .bool b => a == b
  | .number a, .number b => a == b
  | .text a, .text b => a == b
  | _, _ => false

/-- The items that a Set has of what is put into it, in order. -/
def distinct (items : List JsValue) : List JsValue :=
  items.foldl (fun kept v ↦ if kept.any (same v) then kept else kept ++ [v]) []

/-- What a value yields one after the other, if it can be gone through. -/
def iterated? : JsValue → Option (List JsValue)
  | .array items => some items
  | .set items => some items
  | .text s => some (s.toList.map fun c ↦ .text (String.singleton c))
  | _ => none

/-- The Set of what a value yields. -/
def toSet? (v : JsValue) : Option JsValue :=
  if v.isNullish then some (.set []) else v.iterated?.map fun items ↦ .set (distinct items)

/-- What a function makes of each item of an array. -/
def mapItems? (f : JsValue → Option JsValue) : JsValue → Option (List JsValue)
  | .array items => items.mapM f
  | _ => none

private theorem allJson_iff (vs : List JsValue) :
    allJson vs = true ↔ ∀ v ∈ vs, v.isJson = true := by
  induction vs with
  | nil => simp [allJson]
  | cons v vs ih => simp [allJson, ih]

private theorem anyHoldsSet_eq_false_iff (vs : List JsValue) :
    anyHoldsSet vs = false ↔ ∀ v ∈ vs, v.holdsSet = false := by
  induction vs with
  | nil => simp [anyHoldsSet]
  | cons v vs ih => simp [anyHoldsSet, ih]

mutual

/-- There is no Set in JSON. -/
private theorem holdsSet_of_isJson : ∀ v : JsValue, v.isJson = true → v.holdsSet = false
  | .undefined, _ => rfl
  | .null, _ => rfl
  | .bool _, _ => rfl
  | .number _, _ => rfl
  | .text _, _ => rfl
  | .record _ _, _ => rfl
  | .set _, h => by simp [isJson] at h
  | .array items, h => by
    rw [isJson] at h
    rw [holdsSet, anyHoldsSet_of_allJson items h]
  | .object members, h => by
    rw [isJson] at h
    rw [holdsSet, memberHoldsSet_of_membersJson members h]

private theorem anyHoldsSet_of_allJson :
    ∀ vs : List JsValue, allJson vs = true → anyHoldsSet vs = false
  | [], _ => rfl
  | v :: vs, h => by
    rw [allJson, Bool.and_eq_true] at h
    rw [anyHoldsSet, holdsSet_of_isJson v h.1, anyHoldsSet_of_allJson vs h.2, Bool.or_false]

private theorem memberHoldsSet_of_membersJson :
    ∀ ms : List (String × JsValue), membersJson ms = true → memberHoldsSet ms = false
  | [], _ => rfl
  | (_, v) :: ms, h => by
    rw [membersJson, Bool.and_eq_true] at h
    rw [memberHoldsSet, holdsSet_of_isJson v h.1, memberHoldsSet_of_membersJson ms h.2,
      Bool.or_false]

end

/-- Whether a value can be the raw one of a property: JSON, or nothing where the property is not
there. -/
def IsRaw (v : JsValue) : Prop :=
  v = .undefined ∨ v.isJson = true

private theorem IsRaw.holdsSet {v : JsValue} (h : v.IsRaw) : v.holdsSet = false := by
  rcases h with rfl | h
  · rfl
  · exact holdsSet_of_isJson v h

private theorem exists_of_mem_mapM {f : JsValue → Option JsValue} {items results : List JsValue}
    (hm : items.mapM f = some results) {w : JsValue} (hw : w ∈ results) :
    ∃ item ∈ items, f item = some w := by
  induction items generalizing results with
  | nil =>
    rw [List.mapM_nil] at hm
    cases hm
    cases hw
  | cons item items ih =>
    rw [List.mapM_cons, Option.bind_eq_bind, Option.bind_eq_some_iff] at hm
    obtain ⟨first, hf, hm⟩ := hm
    rw [Option.bind_eq_bind, Option.bind_eq_some_iff] at hm
    obtain ⟨rest, hr, hm⟩ := hm
    cases hm
    rcases List.mem_cons.mp hw with rfl | hw
    · exact ⟨item, .head _, hf⟩
    · obtain ⟨other, ho, hf⟩ := ih hr hw
      exact ⟨other, .tail _ ho, hf⟩

/-- What is made of the items of JSON is made of JSON. -/
private theorem IsRaw.exists_item {f : JsValue → Option JsValue} {v w : JsValue}
    {results : List JsValue} (h : v.IsRaw) (hm : v.mapItems? f = some results) (hw : w ∈ results) :
    ∃ item : JsValue, item.IsRaw ∧ f item = some w := by
  cases v with
  | array items =>
    obtain ⟨item, hi, hf⟩ := exists_of_mem_mapM hm hw
    have hj : JsValue.allJson items = true := h.resolve_left (by simp)
    exact ⟨item, .inr ((allJson_iff items).mp hj item hi), hf⟩
  | _ => cases hm

/-- A Set has no items but those that are put into it. -/
private theorem distinct_subset (items : List JsValue) : distinct items ⊆ items := by
  have hf (kept rest : List JsValue) :
      rest.foldl (fun kept v ↦ if kept.any (same v) then kept else kept ++ [v]) kept ⊆
        kept ++ rest := by
    induction rest generalizing kept with
    | nil => simp
    | cons v rest ih =>
      rw [List.foldl_cons]
      split
      · exact List.Subset.trans (ih kept) (by simp)
      · simpa using ih (kept ++ [v])
  simpa [distinct] using hf [] items

/-- A Set of what a raw value yields has no Set in it. -/
private theorem IsRaw.exists_toSet?_eq {raw v : JsValue} (h : raw.IsRaw)
    (hv : raw.toSet? = some v) :
    ∃ kept, v = .set kept ∧ ∀ item ∈ kept, item.holdsSet = false := by
  rw [toSet?] at hv
  split at hv
  · exact ⟨[], (Option.some.inj hv).symm, by simp⟩
  · obtain ⟨items, hi, rfl⟩ := Option.map_eq_some_iff.mp hv
    refine ⟨_, rfl, fun item hm ↦ ?_⟩
    replace hm := distinct_subset _ hm
    cases raw with
    | array elements =>
      obtain rfl := Option.some.inj hi
      have hs := h.holdsSet
      rw [JsValue.holdsSet, anyHoldsSet_eq_false_iff] at hs
      exact hs item hm
    | text s =>
      obtain rfl := Option.some.inj hi
      obtain ⟨c, -, rfl⟩ := List.mem_map.mp hm
      rfl
    | set _ => exact absurd h.holdsSet (by simp [JsValue.holdsSet])
    | _ => cases hi

end JsValue

namespace TypeScriptModels

/-! ## Reading -/

/-- What is done with raw JSON. -/
inductive Reading where
  /-- The class of a model reads it. -/
  | record (model : String)
  /-- It is read unless it is `null`. -/
  | orNull (inner : Reading)
  /-- Each item is read. -/
  | items (inner : Reading)
  /-- Its items are put into a Set. -/
  | set
  /-- Each item is read, and the results are put into a Set. -/
  | setOf (inner : Reading)

namespace Reading

/-- The expression for a reading of what another expression stands for. -/
def text : Reading → String → String
  | .record model, raw => model ++ ".fromJSON(" ++ raw ++ ")"
  | .orNull inner, raw => raw ++ " == null ? null : " ++ inner.text raw
  | .items inner, raw => raw ++ ".map((it: any) => " ++ inner.text "it" ++ ")"
  | .set, raw => "new Set(" ++ raw ++ ")"
  | .setOf inner, raw =>
    "new Set(" ++ (raw ++ ".map((it: any) => " ++ inner.text "it" ++ ")") ++ ")"

/-- The value of a reading, unless an exception is thrown. Classes accept the data that they can
read. -/
def apply (accepts : String → JsValue → Bool) : Reading → JsValue → Option JsValue
  | .record model, v => if accepts model v then some (.record model v) else none
  | .orNull inner, v => if v.isNullish then some .null else inner.apply accepts v
  | .items inner, v => (v.mapItems? (inner.apply accepts)).map .array
  | .set, v => v.toSet?
  | .setOf inner, v => (v.mapItems? (inner.apply accepts)).map fun items ↦
      .set (JsValue.distinct items)

/-- Whether a Set is built, apart from what classes do. -/
def buildsSet : Reading → Bool
  | .record _ => false
  | .orNull inner => inner.buildsSet
  | .items inner => inner.buildsSet
  | .set => true
  | .setOf _ => true

end Reading

mutual

/-- The reading of what has a meaning, or nothing where raw JSON can be used as it is. -/
def reading? (models : Models) (meaning : Meaning) : Option Reading :=
  match models.recordOf? meaning with
  | some model => some (.record model.name)
  | none =>
    match meaning with
    | .types members => soleReading? models members (members.any (·.isNull))
    | .union _ branches => soleReading? models branches (branches.any (·.isNull))
    | .list items true => some (((itemReading? models items).map .setOf).getD .set)
    | .list items false => (itemReading? models items).map .items
    | _ => none
termination_by structural meaning

/-- The reading of each item of an array. -/
def itemReading? (models : Models) (items : Option Meaning) : Option Reading :=
  match items with
  | some m => reading? models m
  | none => none
termination_by structural items

/-- The reading of the only member that is not `null`, if there is just one. -/
def soleReading? (models : Models) (members : List Meaning) (nullable : Bool) : Option Reading :=
  match members with
  | [] => none
  | m :: ms =>
    if m.isNull then soleReading? models ms nullable
    else if ms.all (·.isNull) then
      (reading? models m).map fun r ↦ if nullable then .orNull r else r
    else none
termination_by structural members

end

mutual

/-- What is spelled for a meaning is its reading. -/
theorem fromJson?_eq (models : Models) : ∀ (meaning : Meaning) (raw : String),
    TypeScriptClient.fromJson? models meaning raw = (reading? models meaning).map (·.text raw)
  | .types members, raw => soleFromJson?_eq models members raw _
  | .union _ branches, raw => soleFromJson?_eq models branches raw _
  | .list items distinct, raw => by
    have hi := itemFromJson?_eq models items
    cases distinct with
    | true =>
      simp only [TypeScriptClient.fromJson?, reading?, Models.recordOf?, hi, if_true]
      cases itemReading? models items <;> rfl
    | false =>
      simp only [TypeScriptClient.fromJson?, reading?, Models.recordOf?, hi]
      cases itemReading? models items <;> rfl
  | .ref pointer, raw => by
    simp only [TypeScriptClient.fromJson?, reading?]
    cases models.recordOf? (.ref pointer) <;> rfl
  | .absent, _ => rfl
  | .flag _, _ => rfl
  | .const _, _ => rfl
  | .scalar _, _ => rfl
  | .formatted _, _ => rfl
  | .tuple _ _ _, _ => rfl
  | .object _ _ _, _ => rfl

private theorem itemFromJson?_eq (models : Models) : ∀ items : Option Meaning,
    TypeScriptClient.itemFromJson? models items = (itemReading? models items).map (·.text "it")
  | some m => fromJson?_eq models m "it"
  | none => rfl

private theorem soleFromJson?_eq (models : Models) : ∀ (members : List Meaning) (raw : String)
    (nullable : Bool), TypeScriptClient.soleFromJson? models members raw nullable =
      (soleReading? models members nullable).map (·.text raw)
  | [], _, _ => rfl
  | m :: ms, raw, nullable => by
    rw [TypeScriptClient.soleFromJson?, soleReading?]
    split
    · exact soleFromJson?_eq models ms raw nullable
    · split
      · rw [fromJson?_eq models m raw, Option.map_map, Option.map_map]
        refine congrFun (congrArg Option.map (funext fun r ↦ ?_)) _
        cases nullable <;> rfl
      · rfl

end

/-! ## Sets -/

namespace Reading

variable {accepts : String → JsValue → Bool}

/-- Where no Set is built, none comes from JSON. -/
private theorem holdsSet_of_apply {r : Reading} (hr : r.buildsSet = false) {raw v : JsValue}
    (hraw : raw.IsRaw) (hv : r.apply accepts raw = some v) : v.holdsSet = false := by
  induction r generalizing raw v with
  | record model =>
    rw [apply] at hv
    split at hv
    · cases hv
      rfl
    · cases hv
  | orNull inner ih =>
    rw [apply] at hv
    split at hv
    · cases hv
      rfl
    · exact ih hr hraw hv
  | items inner ih =>
    obtain ⟨results, hm, rfl⟩ := Option.map_eq_some_iff.mp hv
    rw [JsValue.holdsSet, JsValue.anyHoldsSet_eq_false_iff]
    intro w hw
    obtain ⟨item, hi, ha⟩ := hraw.exists_item hm hw
    exact ih hr hi ha
  | set => cases hr
  | setOf inner => cases hr

/-- Where a Set is built, there is an array from which one comes. -/
private theorem exists_holdsSet (accepts : String → JsValue → Bool) {r : Reading}
    (hr : r.buildsSet = true) : ∃ items v,
    (JsValue.array items).isJson = true ∧ r.apply accepts (.array items) = some v ∧
      v.holdsSet = true := by
  induction r with
  | record model => cases hr
  | orNull inner ih =>
    obtain ⟨items, v, hj, hv, hs⟩ := ih hr
    exact ⟨items, v, hj, hv, hs⟩
  | items inner ih =>
    obtain ⟨items, v, hj, hv, hs⟩ := ih hr
    refine ⟨[.array items], .array [v], ?_, ?_, ?_⟩
    · rw [JsValue.isJson, JsValue.allJson, hj]
      rfl
    · rw [apply, JsValue.mapItems?, List.mapM_cons, hv]
      rfl
    · rw [JsValue.holdsSet, JsValue.anyHoldsSet, hs]
      rfl
  | set => exact ⟨[], .set [], rfl, rfl, rfl⟩
  | setOf inner => exact ⟨[], .set [], rfl, rfl, rfl⟩

end Reading

/-! ## Properties of classes -/

namespace Field

/-- The argument of the constructor for a property, unless an exception is thrown. -/
def read (models : Models) (accepts : String → JsValue → Bool) (field : Field) (raw : JsValue) :
    Option JsValue :=
  match reading? models field.meaning with
  | none => some raw
  | some r => if !field.required && raw.isNullish then some raw else r.apply accepts raw

/-- Whether there is a Set in the argument of the constructor, apart from what classes do. -/
def buildsSet (models : Models) (field : Field) : Bool :=
  (reading? models field.meaning).any Reading.buildsSet

/-- What the items of a property are that is made an array before it is written. -/
def setItems? (field : Field) : Option (Option Meaning) :=
  match field.meaning with
  | .list items true => some items
  | _ => none

/-- What is written for a property as JSON, where its value can be gone through if it has to be. -/
def write? (field : Field) (v : JsValue) : Option JsValue :=
  if field.setItems?.isSome && !v.isNullish then v.iterated?.map .array else some v

/-- Whether a property is a Set whose items are no Sets and have none in them. -/
def isFlatSet (models : Models) (field : Field) : Bool :=
  field.setItems?.any fun items ↦ !(itemReading? models items).any Reading.buildsSet

end Field

/-- The text of the argument is that of its reading, with a test in front where the property does
not have to be there. -/
theorem fromJsonText_eq (models : Models) (field : Field) :
    fromJsonText models field =
      match reading? models field.meaning with
      | none => rawText field
      | some r =>
        if field.required then r.text (rawText field)
        else rawText field ++ " == null ? " ++ rawText field ++ " : " ++
          r.text (rawText field) := by
  rw [fromJsonText, fromJson?_eq]
  cases reading? models field.meaning <;> rfl

namespace Field

variable {models : Models} {accepts : String → JsValue → Bool} {field : Field}

theorem setItems?_eq_some_iff {items : Option Meaning} :
    field.setItems? = some items ↔ field.meaning = .list items true := by
  unfold setItems?
  split
  · next other h => simp [h]
  · next h => exact iff_of_false (by simp) (h items)

/-- A property that is made an array is read as a Set. -/
private theorem reading?_eq_of_setItems? (models : Models) {items : Option Meaning}
    (h : field.setItems? = some items) :
    reading? models field.meaning = some (((itemReading? models items).map .setOf).getD .set) := by
  rw [setItems?_eq_some_iff.mp h]
  rfl

/-- What is read is the raw value itself or what the reading makes of it. -/
private theorem read_cases {raw v : JsValue} (h : field.read models accepts raw = some v) :
    v = raw ∧ (reading? models field.meaning = none ∨ raw.isNullish = true) ∨
      ∃ r, reading? models field.meaning = some r ∧ r.apply accepts raw = some v := by
  unfold read at h
  split at h
  · next hr => exact .inl ⟨(Option.some.inj h).symm, .inl hr⟩
  · next r hr =>
    split at h
    · next hn =>
      rw [Bool.and_eq_true] at hn
      exact .inl ⟨(Option.some.inj h).symm, .inr hn.2⟩
    · exact .inr ⟨r, hr, h⟩

private theorem read_array {r : Reading} (hr : reading? models field.meaning = some r)
    (items : List JsValue) :
    field.read models accepts (.array items) = r.apply accepts (.array items) := by
  rw [read, hr]
  cases field.required <;> rfl

/-- No Set is left of a property that is written as it is and read without one. -/
private theorem written_of_buildsSet_eq_false (hb : field.buildsSet models = false)
    {raw v : JsValue} (hraw : raw.IsRaw) (hv : field.read models accepts raw = some v) :
    ∃ w, field.write? v = some w ∧ w.holdsSet = false := by
  have hn : field.setItems? = none := by
    by_contra hs
    obtain ⟨items, hi⟩ := Option.ne_none_iff_exists'.mp hs
    rw [buildsSet, reading?_eq_of_setItems? models hi, Option.any_some] at hb
    cases hr : itemReading? models items <;> rw [hr] at hb <;> cases hb
  refine ⟨v, by simp [write?, hn], ?_⟩
  rcases read_cases hv with ⟨rfl, -⟩ | ⟨r, hr, ha⟩
  · exact hraw.holdsSet
  · rw [buildsSet, hr, Option.any_some] at hb
    exact Reading.holdsSet_of_apply hb hraw ha

/-- No Set is left of a flat Set, which is made an array. -/
private theorem written_of_isFlatSet (hf : field.isFlatSet models = true) {raw v : JsValue}
    (hraw : raw.IsRaw) (hv : field.read models accepts raw = some v) :
    ∃ w, field.write? v = some w ∧ w.holdsSet = false := by
  obtain ⟨items, hi, hf⟩ := (Option.any_eq_true _ _).mp hf
  have hr := reading?_eq_of_setItems? models hi
  rcases read_cases hv with ⟨rfl, hn | hn⟩ | ⟨r, hr', ha⟩
  · rw [hr] at hn
    cases hn
  · exact ⟨v, by simp [write?, hn], hraw.holdsSet⟩
  · obtain rfl := Option.some.inj (hr.symm.trans hr')
    have hset : ∃ kept, v = .set kept ∧ ∀ w ∈ kept, w.holdsSet = false := by
      cases hx : itemReading? models items with
      | none =>
        rw [hx] at ha
        exact hraw.exists_toSet?_eq ha
      | some inner =>
        rw [hx] at ha hf
        obtain ⟨results, hm, rfl⟩ := Option.map_eq_some_iff.mp ha
        refine ⟨_, rfl, fun w hw ↦ ?_⟩
        obtain ⟨item, hi, hw⟩ := hraw.exists_item hm (JsValue.distinct_subset _ hw)
        exact Reading.holdsSet_of_apply (by simpa using hf) hi hw
    obtain ⟨kept, rfl, hk⟩ := hset
    refine ⟨.array kept, by simp [write?, hi, JsValue.isNullish, JsValue.iterated?], ?_⟩
    rw [JsValue.holdsSet, JsValue.anyHoldsSet_eq_false_iff]
    exact hk

/-- A Set is left of any other property, if it is read from the right array. -/
private theorem exists_written_holdsSet (accepts : String → JsValue → Bool)
    (hb : field.buildsSet models = true)
    (hf : field.isFlatSet models = false) : ∃ raw v w : JsValue, raw.IsRaw ∧
      field.read models accepts raw = some v ∧ field.write? v = some w ∧ w.holdsSet = true := by
  obtain ⟨r, hr, hrb⟩ := (Option.any_eq_true _ _).mp hb
  cases hi : field.setItems? with
  | none =>
    obtain ⟨items, v, hj, ha, hs⟩ := Reading.exists_holdsSet accepts hrb
    exact ⟨.array items, v, v, .inr hj, (read_array hr items).trans ha, by simp [write?, hi], hs⟩
  | some items =>
    rw [isFlatSet, hi, Option.any_some, Bool.not_eq_false'] at hf
    obtain ⟨inner, hx, hib⟩ := (Option.any_eq_true _ _).mp hf
    obtain rfl : r = .setOf inner := by
      rw [reading?_eq_of_setItems? models hi, hx] at hr
      exact (Option.some.inj hr).symm
    -- a Set with one item, which holds a Set itself
    obtain ⟨elements, v, hj, ha, hs⟩ := Reading.exists_holdsSet accepts hib
    refine ⟨.array [.array elements], .set [v], .array [v], .inr ?_, ?_, ?_, ?_⟩
    · rw [JsValue.isJson, JsValue.allJson, hj]
      rfl
    · rw [read_array hr, Reading.apply, JsValue.mapItems?, List.mapM_cons, ha]
      rfl
    · simp [write?, hi, JsValue.isNullish, JsValue.iterated?]
    · rw [JsValue.holdsSet, JsValue.anyHoldsSet, hs]
      rfl

end Field

theorem toJson_eq (field : Field) (value : String) :
    toJson field.meaning value =
      if field.setItems?.isSome then
        value ++ " == null ? " ++ value ++ " : Array.from(" ++ value ++ ")"
      else value := by
  cases hi : field.setItems? with
  | some items =>
    rw [Field.setItems?_eq_some_iff.mp hi]
    rfl
  | none =>
    unfold toJson
    split
    · next items hm =>
      rw [Field.setItems?_eq_some_iff.mpr hm] at hi
      cases hi
    · rfl

/-- The two conversions of a property are spelled as they are modelled here. Whatever raw value the
property is read from, no Set is left where it is written exactly if no Set is built, or if the
property is a Set itself and its items neither are Sets nor have one in them. -/
theorem sets_written_back_iff (models : Models) (accepts : String → JsValue → Bool)
    (field : Field) :
    (fromJsonText models field =
      match reading? models field.meaning with
      | none => rawText field
      | some r =>
        if field.required then r.text (rawText field)
        else rawText field ++ " == null ? " ++ rawText field ++ " : " ++
          r.text (rawText field)) ∧
      (∀ value, toJson field.meaning value =
        if field.setItems?.isSome then
          value ++ " == null ? " ++ value ++ " : Array.from(" ++ value ++ ")"
        else value) ∧
      ((∀ raw v : JsValue, raw.IsRaw → field.read models accepts raw = some v →
          ∃ w, field.write? v = some w ∧ w.holdsSet = false) ↔
        field.buildsSet models = false ∨ field.isFlatSet models = true) := by
  refine ⟨fromJsonText_eq models field, toJson_eq field, ?_, ?_⟩
  · intro h
    by_contra hn
    rw [not_or, Bool.not_eq_false, Bool.not_eq_true] at hn
    obtain ⟨raw, v, w, hraw, hv, hw, hs⟩ := field.exists_written_holdsSet accepts
      hn.1 hn.2
    obtain ⟨w', hw', hs'⟩ := h raw v hraw hv
    obtain rfl := Option.some.inj (hw.symm.trans hw')
    exact absurd hs (by simp [hs'])
  · rintro (hb | hf) raw v hraw hv
    · exact Field.written_of_buildsSet_eq_false hb hraw hv
    · exact Field.written_of_isFlatSet hf hraw hv

/-- A document with a class that has one property. -/
def post (tags : Schema) : Document where
  openrpc := "1.3.2"
  info := { title := "Tags", version := "1" }
  methods := []
  components := some { schemas := some [
    ("Post", (Schema.ofType .object).withProperty "tags" tags)] }

/-- A Set that may be `null` is read as a Set, but it is written as it is. -/
theorem exists_set_not_written_back :
    ∃ plan, Plan.ofDocument (post (((Schema.ofTypes [.array, .null]).withItems
        (Schema.ofType .string)).withUniqueItems true)) = .ok plan ∧
      ∃ model ∈ plan.interface.models.toList, model.kind = .record ∧
        ∃ field ∈ (recordOf model).fields,
          fromJsonText plan.interface.models field = "data[\"tags\"] == null ? data[\"tags\"] : " ++
            "data[\"tags\"] == null ? null : new Set(data[\"tags\"])" ∧
          toJson field.meaning ("this." ++ field.name) = "this.tags" ∧
          ∀ accepts, ¬ ∀ raw v : JsValue, raw.IsRaw →
            field.read plan.interface.models accepts raw = some v →
              ∃ w, field.write? v = some w ∧ w.holdsSet = false := by
  generalize ht : ((Schema.ofTypes [.array, .null]).withItems _).withUniqueItems true = tags
  have hf : ((Plan.ofDocument (post tags)).toOption.map fun plan ↦
      plan.interface.models.toList.map fun model ↦
        (model.kind, (recordOf model).fields.map fun field ↦
          (fromJsonText plan.interface.models field, toJson field.meaning ("this." ++ field.name),
            field.buildsSet plan.interface.models && !field.isFlatSet plan.interface.models))) =
      some [(.record, [("data[\"tags\"] == null ? data[\"tags\"] : " ++
        "data[\"tags\"] == null ? null : new Set(data[\"tags\"])", "this.tags", true)])] := by
    subst ht
    decide +kernel
  obtain ⟨plan, hp, he⟩ := exists_ok_of_map_toOption hf
  obtain ⟨model, hm, hk⟩ := List.mem_map.mp (he ▸ List.mem_singleton_self _)
  obtain ⟨hk, hl⟩ := Prod.mk.inj hk
  obtain ⟨field, hi, hx⟩ := List.mem_map.mp (hl ▸ List.mem_singleton_self _)
  simp only [Prod.mk.injEq, Bool.and_eq_true, Bool.not_eq_true'] at hx
  obtain ⟨hr, hw, hb, hs⟩ := hx
  refine ⟨plan, hp, model, hm, hk, field, hi, hr, hw, fun accepts h ↦ ?_⟩
  obtain ⟨raw, v, w, hraw, hv, hw, hsw⟩ := field.exists_written_holdsSet accepts hb hs
  obtain ⟨w', hw', hn⟩ := h raw v hraw hv
  obtain rfl := Option.some.inj (hw.symm.trans hw')
  exact absurd hsw (by simp [hn])

end TypeScriptModels

end RpcForge

import RpcForge.Document.Grammar
import RpcForge.Json.Members
import RpcForge.Proofs.Except
import RpcForge.Proofs.Json.Shape

/-!
# The normal form of a document

What a document looks like when it is written back, as a function of the value it was read from. At
every record the declared fields come first, in the order of their declaration, and all other
members after them in their own order. A declared field that may be left out is left out where it is
`null`, how parameters are sent is a plain name, and everything else stays as it is. The normal form
of a value without faults has no faults.
-/

namespace RpcForge.Part

open RpcForge.Json

/-- A choice that is written as an object with one key, as the key alone. -/
def respell (shape : Shape Part) (v : Value) : Value :=
  match shape, v with
  | .whole .parameterStructure, .object [(name, _)] => .string name
  | _, v => v

/-- The member of a record for one of its fields, unless the field is `null` and may be left out. -/
def written (members : Entries Value) (field : FieldShape Part) : Entries Value :=
  match Entries.get? members field.key with
  | some v => if field.presence = .optional ∧ v.isNull = true then [] else [(field.key, v)]
  | none => []

/-- The members of a record, its fields first and in the order of their declaration. -/
def arrange (part : Part) (members : Entries Value) : Entries Value :=
  part.fields.flatMap (written members) ++ Entries.besides members part.keys

mutual

/-- The normal form of a value of a shape. -/
def normal (shape : Shape Part) (v : Value) : Value :=
  match documentGrammar.settle shape v, v with
  | .ok (.list item), .array vs => .array (normalItems item vs)
  | .ok (.map value), .object members => .object (normalValues value members)
  | .ok (.record part), .object members => .object (arrange part (normalFields part members))
  | _, v => respell shape v
termination_by structural v

/-- The items of an array in normal form. -/
def normalItems (item : Shape Part) : List Value → List Value
  | [] => []
  | v :: vs => normal item v :: normalItems item vs
termination_by structural vs => vs

/-- The members of a map with their values in normal form. -/
def normalValues (value : Shape Part) : List (String × Value) → List (String × Value)
  | [] => []
  | (key, v) :: rest => (key, normal value v) :: normalValues value rest
termination_by structural members => members

/-- The members of a record with the values of its fields in normal form. -/
def normalFields (part : Part) : List (String × Value) → List (String × Value)
  | [] => []
  | (key, v) :: rest =>
    (key, match documentGrammar.field? part key with
      | some field => normal field.shape v
      | none => v) :: normalFields part rest
termination_by structural members => members

end

/-- The value of a record's member in normal form. -/
def normalIn (part : Part) (key : String) (v : Value) : Value :=
  match documentGrammar.field? part key with
  | some field => normal field.shape v
  | none => v

variable {part : Part} {members : Entries Value}

private theorem normalItems_eq_map (item : Shape Part) (vs : List Value) :
    normalItems item vs = vs.map (normal item) := by
  induction vs with
  | nil => rfl
  | cons v vs ih => exact congrArg (normal item v :: ·) ih

private theorem normalValues_eq_mapValues (value : Shape Part) (members : Entries Value) :
    normalValues value members = Members.mapValues (normal value) members := by
  induction members with
  | nil => rfl
  | cons member rest ih => exact congrArg ((member.1, normal value member.2) :: ·) ih

private theorem normalFields_eq_map (part : Part) (members : Entries Value) :
    normalFields part members =
      members.map fun member ↦ (member.1, normalIn part member.1 member.2) := by
  induction members with
  | nil => rfl
  | cons member rest ih => exact congrArg ((member.1, normalIn part member.1 member.2) :: ·) ih

/-! ## Normal forms by shape -/

/-- What the normal form of a value is follows from the value and from what its shape is settled
to. -/
private theorem normal_eq (shape : Shape Part) (v : Value) :
    normal shape v =
      match documentGrammar.settle shape v, v with
      | .ok (.list item), .array vs => .array (vs.map (normal item))
      | .ok (.map value), .object members => .object (Members.mapValues (normal value) members)
      | .ok (.record part), .object members => .object (arrange part (normalFields part members))
      | _, v => respell shape v := by
  simp only [normal.eq_def, normalItems_eq_map, normalValues_eq_mapValues]

/-- A value that may be anything is kept, unless it has a shorter spelling. -/
theorem normal_of_settle_any {shape : Shape Part} {v : Value}
    (h : documentGrammar.settle shape v = .ok .any) : normal shape v = respell shape v := by
  rw [normal_eq, h]

theorem normal_any (v : Value) : normal .any v = v :=
  normal_of_settle_any rfl

theorem normal_of_settle_list {shape item : Shape Part} {vs : List Value}
    (h : documentGrammar.settle shape (.array vs) = .ok (.list item)) :
    normal shape (.array vs) = .array (vs.map (normal item)) := by
  rw [normal_eq, h]

theorem normal_of_settle_map {shape value : Shape Part}
    (h : documentGrammar.settle shape (.object members) = .ok (.map value)) :
    normal shape (.object members) = .object (Members.mapValues (normal value) members) := by
  rw [normal_eq, h]

theorem normal_of_settle_record {shape : Shape Part}
    (h : documentGrammar.settle shape (.object members) = .ok (.record part)) :
    normal shape (.object members) = .object (arrange part (normalFields part members)) := by
  rw [normal_eq, h]

/-- What is neither an array nor an object is kept. -/
private theorem normal_of_scalar {shape : Shape Part} {v : Value} (hi : v.items? = none)
    (hm : v.members? = none) : normal shape v = v := by
  rw [normal_eq]
  split
  · cases hi
  · cases hm
  · cases hm
  · unfold respell
    split
    · cases hm
    · rfl

/-- A value is `null` exactly if its normal form is. -/
theorem isNull_normal (shape : Shape Part) (v : Value) : (normal shape v).isNull = v.isNull := by
  rw [normal_eq]
  split
  · rfl
  · rfl
  · rfl
  · unfold respell
    split
    · rfl
    · rfl

/-! ## The arrangement of a record -/

private theorem nodup_keys (part : Part) : part.keys.Nodup := by
  cases part <;> decide

/-- A key belongs to the field that is declared under it. -/
theorem field?_eq_some_iff {key : String} {field : FieldShape Part} :
    documentGrammar.field? part key = some field ↔ field ∈ part.fields ∧ field.key = key := by
  constructor
  · intro h
    exact ⟨List.mem_of_find?_eq_some h, by simpa using List.find?_some h⟩
  · rintro ⟨hf, rfl⟩
    rw [Grammar.field?, List.find?_eq_some_iff_append]
    obtain ⟨before, after, he⟩ := List.append_of_mem hf
    refine ⟨by simp, before, after, he, ?_⟩
    -- An earlier field of the same key would repeat it.
    intro other hm
    have hd := nodup_keys part
    rw [keys, Grammar.declaredKeys, show documentGrammar.fields part = _ from he, List.map_append,
      List.map_cons] at hd
    have hn := (List.nodup_append.mp hd).2.2 other.key (List.mem_map_of_mem hm) field.key (.head _)
    simpa using hn

theorem field?_eq_none_iff {key : String} :
    documentGrammar.field? part key = none ↔ key ∉ part.keys := by
  rw [Grammar.field?, List.find?_eq_none, keys, Grammar.declaredKeys, List.mem_map]
  simp

theorem field?_isSome_iff {key : String} :
    (documentGrammar.field? part key).isSome = true ↔ key ∈ part.keys := by
  rw [Option.isSome_iff_ne_none, ne_eq, field?_eq_none_iff, not_not]

/-- Only a field changes on the way to normal form. -/
private theorem normalIn_of_not_mem {key : String} (h : key ∉ part.keys) (v : Value) :
    normalIn part key v = v := by
  rw [normalIn, field?_eq_none_iff.mpr h]

theorem normalIn_of_field {key : String} {field : FieldShape Part}
    (h : documentGrammar.field? part key = some field) (v : Value) :
    normalIn part key v = normal field.shape v := by
  rw [normalIn, h]

private theorem keys_normalFields (part : Part) (members : Entries Value) :
    Entries.keys (normalFields part members) = Entries.keys members := by
  rw [normalFields_eq_map, Entries.keys, List.map_map]
  rfl

theorem get?_normalFields (part : Part) (members : Entries Value) (key : String) :
    Entries.get? (normalFields part members) key =
      (Entries.get? members key).map (normalIn part key) := by
  rw [normalFields_eq_map, Entries.get?_map]

/-- Members beside the fields stay as they are. -/
theorem besides_normalFields (part : Part) (members : Entries Value) :
    Entries.besides (normalFields part members) part.keys = Entries.besides members part.keys := by
  rw [normalFields_eq_map]
  induction members with
  | nil => rfl
  | cons member rest ih =>
    obtain ⟨key, v⟩ := member
    rw [Entries.besides] at ih
    rw [List.map_cons, Entries.besides, Entries.besides, List.filter_cons, List.filter_cons, ih]
    by_cases hk : key ∈ part.keys
    · simp [hk, Entries.besides]
    · simp [hk, Entries.besides, normalIn_of_not_mem hk]

/-- What is written for a field. -/
private theorem mem_written_iff {field : FieldShape Part} {key : String} {v : Value} :
    (key, v) ∈ written members field ↔ key = field.key ∧
      Entries.get? members field.key = some v ∧
        ¬(field.presence = .optional ∧ v.isNull = true) := by
  rw [written]
  cases hg : Entries.get? members field.key with
  | none => simp
  | some w =>
    dsimp only
    split
    · next hw =>
      rw [Option.some.injEq]
      constructor
      · intro h
        cases h
      · rintro ⟨-, rfl, h⟩
        exact absurd hw h
    · next hw =>
      simp only [List.mem_singleton, Prod.mk.injEq, Option.some.injEq]
      constructor
      · rintro ⟨rfl, rfl⟩
        exact ⟨rfl, rfl, hw⟩
      · rintro ⟨rfl, rfl, -⟩
        exact ⟨rfl, rfl⟩

private theorem keys_written_sublist (members : Entries Value) (field : FieldShape Part) :
    (Entries.keys (written members field)).Sublist [field.key] := by
  rw [written]
  split
  · split
    · exact List.nil_sublist _
    · exact List.Sublist.refl _
  · exact List.nil_sublist _

/-- The fields of a record are written under some of their keys, in order. -/
private theorem keys_flatMap_written_sublist (members : Entries Value)
    (fields : List (FieldShape Part)) :
    (Entries.keys (fields.flatMap (written members))).Sublist (fields.map FieldShape.key) := by
  induction fields with
  | nil => exact List.Sublist.refl _
  | cons field fields ih =>
    rw [List.flatMap_cons, Entries.keys_append, List.map_cons]
    exact (keys_written_sublist members field).append ih

/-- The declared keys stand in an arrangement as the fields are written. -/
private theorem filter_keys_arrange (part : Part) (members : Entries Value) :
    ((Entries.keys (arrange part members)).filter fun key ↦
        (documentGrammar.field? part key).isSome) =
      Entries.keys (part.fields.flatMap (written members)) := by
  have hc (key : String) :
      (documentGrammar.field? part key).isSome = part.keys.contains key := by
    rw [Bool.eq_iff_iff, field?_isSome_iff, List.contains_iff_mem]
  simp only [hc]
  have hs := keys_flatMap_written_sublist members part.fields
  rw [arrange, Entries.keys_append, List.filter_append, Entries.keys_besides, List.filter_filter]
  rw [List.filter_eq_self.mpr, List.filter_eq_nil_iff.mpr, List.append_nil]
  · simp
  · intro key hk
    exact List.contains_iff_mem.mpr (hs.subset hk)

/-- A field stands among the written ones with its value, unless it is left out. -/
private theorem mem_flatMap_written_iff {key : String} {field : FieldShape Part}
    (hf : documentGrammar.field? part key = some field) {v : Value} :
    (key, v) ∈ part.fields.flatMap (written members) ↔
      Entries.get? members key = some v ∧ ¬(field.presence = .optional ∧ v.isNull = true) := by
  obtain ⟨hm, rfl⟩ := field?_eq_some_iff.mp hf
  rw [List.mem_flatMap]
  constructor
  · rintro ⟨other, ho, hw⟩
    obtain ⟨he, hg, hn⟩ := mem_written_iff.mp hw
    have ho' := field?_eq_some_iff.mpr ⟨ho, he.symm⟩
    rw [hf, Option.some.injEq] at ho'
    subst ho'
    exact ⟨hg, hn⟩
  · rintro ⟨hg, hn⟩
    exact ⟨field, hm, mem_written_iff.mpr ⟨rfl, hg, hn⟩⟩

theorem get?_arrange_eq_some_iff {key : String} {field : FieldShape Part}
    (hf : documentGrammar.field? part key = some field) {v : Value} :
    Entries.get? (arrange part members) key = some v ↔
      Entries.get? members key = some v ∧ ¬(field.presence = .optional ∧ v.isNull = true) := by
  have hk : key ∈ part.keys := field?_isSome_iff.mp (by rw [hf]; rfl)
  have hd : (Entries.keys (part.fields.flatMap (written members))).Nodup :=
    (keys_flatMap_written_sublist members part.fields).nodup (nodup_keys part)
  rw [← mem_flatMap_written_iff hf, arrange, Entries.get?_append, Entries.get?_besides, if_pos hk,
    Option.or_none]
  exact ⟨Entries.mem_of_get?, Entries.get?_of_mem hd⟩

/-- In an arrangement a key that is no field has the value it had. -/
private theorem get?_arrange_of_not_mem {key : String} (hk : key ∉ part.keys)
    (members : Entries Value) :
    Entries.get? (arrange part members) key = Entries.get? members key := by
  have hn : Entries.get? (part.fields.flatMap (written members)) key = none := by
    rw [Entries.get?_eq_none_iff]
    exact fun hm ↦ hk ((keys_flatMap_written_sublist members part.fields).subset hm)
  rw [arrange, Entries.get?_append, hn, Option.none_or, Entries.get?_besides, if_neg hk]

/-- Members beside the fields stand in an arrangement as they stood before. -/
theorem besides_arrange (part : Part) (members : Entries Value) :
    Entries.besides (arrange part members) part.keys = Entries.besides members part.keys := by
  rw [arrange, Entries.besides, List.filter_append, List.filter_eq_nil_iff.mpr, List.nil_append]
  · rw [Entries.besides, List.filter_filter]
    simp
  · intro member hm
    have hk := (keys_flatMap_written_sublist members part.fields).subset (List.mem_map_of_mem hm)
    have hk' : member.1 ∈ part.keys := hk
    simpa using hk'

/-- The keys of an arrangement are keys of the record. -/
private theorem keys_arrange_subset (part : Part) (members : Entries Value) :
    Entries.keys (arrange part members) ⊆ Entries.keys members := by
  intro key hk
  obtain ⟨v, hm⟩ := Entries.exists_mem_of_mem_keys hk
  rcases List.mem_append.mp hm with hw | hb
  · obtain ⟨field, -, hw⟩ := List.mem_flatMap.mp hw
    obtain ⟨rfl, hg, -⟩ := mem_written_iff.mp hw
    exact Entries.mem_keys (Entries.mem_of_get? hg)
  · exact Entries.mem_keys (List.mem_filter.mp hb).1

/-! ## No faults in normal form -/

/-- A record stays in order when its members are arranged. -/
private theorem fits_arrange (h : documentGrammar.Fits part [] members) :
    documentGrammar.Fits part [] (arrange part members) := by
  refine ⟨?known, by simp, ?distinct, ?faultless, ?complete⟩
  case known =>
    intro hc key hk
    exact h.known hc key (keys_arrange_subset part members hk)
  case distinct =>
    rw [filter_keys_arrange]
    exact (keys_flatMap_written_sublist members part.fields).nodup (nodup_keys part)
  case faultless =>
    intro key v hm field hf
    have hk : key ∈ part.keys := field?_isSome_iff.mp (by rw [hf]; rfl)
    rcases List.mem_append.mp hm with hw | hb
    · obtain ⟨hg, -⟩ := (mem_flatMap_written_iff hf).mp hw
      exact h.faultless key v (Entries.mem_of_get? hg) field hf
    · simp [Entries.besides, hk] at hb
  case complete =>
    intro field hf hr
    have hk := (h.complete field hf hr).resolve_left List.not_mem_nil
    obtain ⟨v, hg⟩ := Option.isSome_iff_exists.mp ((Entries.get?_isSome_iff _ _).mpr hk)
    have ha := (get?_arrange_eq_some_iff (field?_eq_some_iff.mpr ⟨hf, rfl⟩)).mpr
      ⟨hg, fun hn ↦ by simp [hr] at hn⟩
    exact .inr (Entries.mem_keys (Entries.mem_of_get? ha))

/-- A value without faults in a place has none there in normal form, if this holds where `null` does
not do. -/
private theorem faultIn?_normal {shape : Shape Part} {nullable : Bool} {v : Value}
    (ih : documentGrammar.error? shape v = none →
      documentGrammar.error? shape (normal shape v) = none)
    (h : documentGrammar.faultIn? shape nullable v = none) :
    documentGrammar.faultIn? shape nullable (normal shape v) = none := by
  rw [Grammar.faultIn?, isNull_normal]
  rw [Grammar.faultIn?] at h
  split
  · rfl
  · next hn =>
    rw [if_neg hn] at h
    exact ih h

/-- A record stays in order when the values of its fields are put in normal form. -/
private theorem fits_normalFields (h : documentGrammar.Fits part [] members)
    (ih : ∀ key v, (key, v) ∈ members → ∀ shape, documentGrammar.error? shape v = none →
      documentGrammar.error? shape (normal shape v) = none) :
    documentGrammar.Fits part [] (normalFields part members) := by
  have hk := keys_normalFields part members
  refine ⟨?_, by simp, ?_, ?_, ?_⟩
  · rw [hk]
    exact h.known
  · rw [hk]
    exact h.distinct
  · intro key v hm field hf
    rw [normalFields_eq_map] at hm
    obtain ⟨⟨key', w⟩, hw, he⟩ := List.mem_map.mp hm
    cases he
    rw [normalIn_of_field hf]
    exact faultIn?_normal (ih key' w hw field.shape) (h.faultless key' w hw field hf)
  · rw [hk]
    exact h.complete

/-- Whether an object is a reference can be seen from its normal form. -/
private theorem isReference_arrange (hp : part = .reference ∨ "$ref" ∉ part.keys)
    (members : Entries Value) :
    isReference (.object (arrange part (normalFields part members))) =
      isReference (.object members) := by
  have hg (entries : Entries Value) :
      isReference (.object entries) = (Entries.get? entries "$ref").isSome := rfl
  have hn := get?_normalFields part members "$ref"
  rw [hg, hg, Bool.eq_iff_iff]
  rcases hp with rfl | hk
  · have hf : documentGrammar.field? .reference "$ref" = some ⟨"$ref", .required, .text⟩ := rfl
    simp only [Option.isSome_iff_exists, get?_arrange_eq_some_iff hf, hn]
    simp
  · rw [get?_arrange_of_not_mem hk, hn, Option.isSome_map]

/-- A part that may be a reference turns out to be the same thing in normal form. -/
theorem isReference_normal {inline : Part} (hi : "$ref" ∉ inline.keys) (members : Entries Value) :
    isReference (.object (arrange (if isReference (.object members) then .reference else inline)
      (normalFields (if isReference (.object members) then .reference else inline) members))) =
      isReference (.object members) := by
  apply isReference_arrange
  split
  · exact .inl rfl
  · exact .inr hi

theorem settle_whole (v : Value) :
    documentGrammar.settle (.whole part) v = part.resolve v := rfl

theorem resolveTypeNames_eq_ok {v : Value} {shape : Shape Part}
    (h : resolveTypeNames v = .ok shape) : shape = .any := by
  unfold resolveTypeNames at h
  split at h
  · split at h
    · cases h
    · cases h
      rfl
  · split at h
    · cases h
    · cases h
      rfl
  · cases h

/-- How parameters are sent is one of the names, or an object with a name as its one key. -/
theorem resolveStructure_eq_ok {v : Value} {shape : Shape Part}
    (h : resolveStructure v = .ok shape) : shape = .any ∧ ∃ name ∈ structureNames,
      v = .string name ∨ v = .object [(name, .null)] := by
  rw [resolveStructure] at h
  obtain ⟨name, hc, he⟩ := map_eq_ok_iff.mp h
  refine ⟨he.symm, name, ?_⟩
  unfold choiceName at hc
  split at hc
  · split at hc
    · next hm =>
      cases hc
      exact ⟨List.contains_iff_mem.mp hm, .inl rfl⟩
    · cases hc
  · next key w =>
    split at hc
    · cases hc
    · next hm =>
      split at hc
      · next hw =>
        cases hc
        have hw' : w = .null := by
          cases w with
          | null => rfl
          | _ => cases hw
        exact ⟨by simpa using hm, .inr (by rw [hw'])⟩
      · cases hc
  · cases hc
  · cases hc

private theorem resolveReference_array_eq_ok {vs : List Value} {shape : Shape Part}
    (h : resolveReference (.array vs) = .ok shape) : shape = .any := by
  cases vs with
  | nil => cases h
  | cons v rest =>
    cases v with
    | string s =>
      rw [resolveReference] at h
      split at h
      · cases h
        rfl
      · cases h
    | _ => cases h

/-- What a value's normal form is judged by is what the value is judged by. -/
private theorem settle_normal {shape : Shape Part} {v : Value}
    (h : documentGrammar.error? shape v = none) :
    documentGrammar.settle shape (normal shape v) = documentGrammar.settle shape v := by
  obtain ⟨settled, hs⟩ := Grammar.exists_settle h
  -- Only a part that looks at the value could settle to something else for its normal form. What it
  -- looks at is the kind of the value, whether it is a reference, or a name that is no record.
  cases shape with
  | whole part =>
    cases part with
    | schemaPosition => cases v <;> rfl
    | items => cases v <;> rfl
    | typeNames =>
      obtain rfl := resolveTypeNames_eq_ok hs
      rw [normal_of_settle_any hs]
      rfl
    | parameterStructure =>
      obtain ⟨rfl, name, hm, rfl | rfl⟩ := resolveStructure_eq_ok hs
      · rw [normal_of_settle_any hs]
        rfl
      · rw [normal_of_settle_any hs, hs, respell, settle_whole, resolve, resolveStructure,
          choiceName, if_pos (List.contains_iff_mem.mpr hm)]
        rfl
    | methodOrReference =>
      cases v with
      | object members =>
        rw [settle_whole, settle_whole, resolve, resolve, normal_of_settle_record rfl,
          isReference_normal (by decide)]
      | _ => rfl
    | descriptorOrReference =>
      cases v with
      | object members =>
        rw [settle_whole, settle_whole, resolve, resolve, normal_of_settle_record rfl,
          isReference_normal (by decide)]
      | _ => rfl
    | reference =>
      cases v with
      | array vs =>
        obtain rfl := resolveReference_array_eq_ok hs
        rw [normal_of_settle_any hs]
        rfl
      | _ => rfl
    | _ => rfl
  | _ => rfl

/-- The normal form of a value without faults has no faults. -/
theorem error?_normal {shape : Shape Part} {v : Value}
    (h : documentGrammar.error? shape v = none) :
    documentGrammar.error? shape (normal shape v) = none := by
  induction hn : sizeOf v using Nat.strongRecOn generalizing shape v with
  | _ n ih =>
  subst hn
  have hs := settle_normal h
  rw [Grammar.error?_eq_none_iff] at h ⊢
  cases h with
  | any settled => exact .any (hs.trans settled)
  | @text s settled =>
    rw [normal_of_scalar rfl rfl]
    exact .text settled
  | @flag b settled =>
    rw [normal_of_scalar rfl rfl]
    exact .flag settled
  | list settled items =>
    rw [normal_of_settle_list settled] at hs ⊢
    refine .list (hs.trans settled) ?_
    rw [List.forall_mem_map]
    intro v hv
    exact ih _ (Value.sizeOf_lt_array hv) (items v hv) rfl
  | map settled values =>
    rw [normal_of_settle_map settled] at hs ⊢
    refine .map (hs.trans settled) ?_
    rw [Members.mapValues, List.forall_mem_map]
    intro member hm
    exact ih _ (Value.sizeOf_lt_object hm) (values member hm) rfl
  | record settled fits =>
    rw [normal_of_settle_record settled] at hs ⊢
    refine .record (hs.trans settled) (fits_arrange (fits_normalFields fits ?_))
    intro key v hm shape hv
    exact ih _ (Value.sizeOf_lt_object hm) hv rfl

end RpcForge.Part

import RpcForge.Document.Extensions
import RpcForge.Proofs.Document.NormalForm

/-!
# Reading and writing the fields of a record

What it takes for a record to be written in normal form and to be read from it again, put together
from its fields. Each field is read by one function and written by another one; a value is kept by
such a pair if writing what was read gives the normal form of the value, from which the same is
read.
-/

namespace RpcForge.Part

open RpcForge.Json

variable {α β : Type} {part : Part} {members : Entries Value}

/-- What a value of a shape is read as is written in the value's normal form, and read from it
again. -/
structure Kept (shape : Shape Part) (read : Value → Option α) (write : α → Value) (v : Value) :
    Prop where
  /-- There is something to be read, and it is written in normal form. -/
  written : (read v).map write = some (normal shape v)
  /-- The normal form is read as the same thing. -/
  again : read (normal shape v) = read v

/-- What is read for a field of a record is written as the field stands in normal form, and read
from it again. -/
structure FieldKept (part : Part) (members : Entries Value) (field : FieldShape Part)
    (read : Entries Value → β) (write : β → Entries Value) : Prop where
  /-- The field is written as it stands in normal form. -/
  written : write (read members) = Part.written (normalFields part members) field
  /-- The normal form is read as the same thing. -/
  again : read (arrange part (normalFields part members)) = read members

/-- What the members of a record are read as is written in normal form, and read from it again. -/
structure RecordKept (part : Part) (build : Entries Value → α) (toValue : α → Value)
    (members : Entries Value) : Prop where
  /-- The record is written in normal form. -/
  written : toValue (build members) = .object (arrange part (normalFields part members))
  /-- The normal form is read as the same record. -/
  again : build (arrange part (normalFields part members)) = build members

/-- All values of a shape below a size are kept. The bound carries the induction where a record
holds records of its own kind. -/
def KeptBelow (n : Nat) (shape : Shape Part) (read : Value → Option α) (write : α → Value) : Prop :=
  ∀ v, sizeOf v < n → documentGrammar.error? shape v = none → Kept shape read write v

/-! ## Values -/

theorem kept_some_iff {shape : Shape Part} {read : Value → α} {write : α → Value} {v : Value} :
    Kept shape (fun v ↦ some (read v)) write v ↔
      write (read v) = normal shape v ∧ read (normal shape v) = read v := by
  constructor
  · intro h
    exact ⟨Option.some.inj h.written, Option.some.inj h.again⟩
  · rintro ⟨hw, ha⟩
    exact ⟨congrArg some hw, congrArg some ha⟩

section Values

variable {n : Nat}

private theorem keptBelow_text : KeptBelow n .text Value.text? .string := by
  intro v _ h
  cases v with
  | string s => exact ⟨rfl, rfl⟩
  | _ => cases h

private theorem keptBelow_flag : KeptBelow n .flag Value.flag? .bool := by
  intro v _ h
  cases v with
  | bool b => exact ⟨rfl, rfl⟩
  | _ => cases h

/-- A value that may be anything is read and written as it is. -/
private theorem keptBelow_any : KeptBelow n .any some id := by
  intro v _ _
  refine ⟨?_, ?_⟩
  · rw [normal_any]
    rfl
  · rw [normal_any]

/-- Where each item is written as something, the items that are read are written as all of it. -/
theorem map_filterMap_eq {read : Value → Option α} {write : α → Value} {f : Value → Value}
    {vs : List Value} (h : ∀ v ∈ vs, (read v).map write = some (f v)) :
    (vs.filterMap read).map write = vs.map f := by
  rw [List.map_filterMap, ← List.filterMap_eq_map]
  exact List.filterMap_congr h

/-- An array is kept if its items are. -/
theorem kept_array {shape item : Shape Part} {read : Value → Option α} {write : α → Value}
    {vs : List Value} (settled : documentGrammar.settle shape (.array vs) = .ok (.list item))
    (kept : ∀ v ∈ vs, Kept item read write v) :
    Kept shape (fun v ↦ v.items?.map (List.filterMap read)) (fun as ↦ .array (as.map write))
      (.array vs) := by
  constructor
  · have hw := map_filterMap_eq fun v hv ↦ (kept v hv).written
    simp only [Value.items?, Option.map_some, hw, normal_of_settle_list settled]
  · have ha : vs.filterMap (read ∘ normal item) = vs.filterMap read :=
      List.filterMap_congr fun v hv ↦ (kept v hv).again
    simp only [Value.items?, Option.map_some, List.filterMap_map, ha,
      normal_of_settle_list settled]

private theorem keptBelow_filterList {item : Shape Part} {read : Value → Option α}
    {write : α → Value} (kept : KeptBelow n item read write) :
    KeptBelow n (.list item) (fun v ↦ v.items?.map (List.filterMap read))
      (fun as ↦ .array (as.map write)) := by
  intro v hn h
  cases (Grammar.error?_eq_none_iff _ _).mp h with
  | list settled items =>
    cases settled
    refine kept_array rfl fun w hw ↦ kept w ?_ (items w hw)
    exact Nat.lt_trans (Value.sizeOf_lt_array hw) hn
  | _ settled => cases settled

private theorem keptBelow_list {item : Shape Part} {read : Value → α} {write : α → Value}
    (kept : KeptBelow n item (fun v ↦ some (read v)) write) :
    KeptBelow n (.list item) (fun v ↦ v.items?.map (List.map read))
      (fun as ↦ .array (as.map write)) := by
  have h := keptBelow_filterList kept
  simpa only [List.filterMap_eq_map'] using h

private theorem keptBelow_items : KeptBelow n (.list .any) Value.items? .array := by
  intro v _ h
  cases (Grammar.error?_eq_none_iff _ _).mp h with
  | @list item vs settled _ =>
    cases settled
    have hn : normal (.list .any) (.array vs) = .array vs := by
      rw [normal_of_settle_list rfl, funext normal_any, List.map_id']
    exact ⟨by rw [hn]; rfl, by rw [hn]⟩
  | _ settled => cases settled

private theorem keptBelow_texts :
    KeptBelow n (.list .text) (fun v ↦ v.items?.map (List.filterMap Value.text?))
      Value.ofStrings :=
  keptBelow_filterList keptBelow_text

private theorem mapValues_mapValues {γ : Type} (f : α → β) (g : β → γ) (entries : Entries α) :
    Members.mapValues g (Members.mapValues f entries) = Members.mapValues (g ∘ f) entries :=
  List.map_map

private theorem mapValues_congr {f g : α → β} {entries : Entries α}
    (h : ∀ entry ∈ entries, f entry.2 = g entry.2) :
    Members.mapValues f entries = Members.mapValues g entries :=
  List.map_congr_left fun entry he ↦ congrArg (Prod.mk entry.1) (h entry he)

/-- A map is kept if its values are. -/
private theorem keptBelow_map {value : Shape Part} {read : Value → α} {write : α → Value}
    (kept : KeptBelow n value (fun v ↦ some (read v)) write) :
    KeptBelow n (.map value) (fun v ↦ v.members?.map (Members.mapValues read))
      (fun as ↦ .object (Members.mapValues write as)) := by
  intro v hn h
  cases (Grammar.error?_eq_none_iff _ _).mp h with
  | @map value' members settled values =>
    cases settled
    have hk (member : String × Value) (hm : member ∈ members) :=
      kept_some_iff.mp (kept member.2 (Nat.lt_trans (Value.sizeOf_lt_object hm) hn)
        (values member hm))
    have hn : normal (.map value) (.object members) = _ := normal_of_settle_map rfl
    constructor
    · have hw := mapValues_congr (f := write ∘ read) fun member hm ↦ (hk member hm).1
      simp only [Value.members?, Option.map_some, mapValues_mapValues, hw, hn]
    · have ha := mapValues_congr (f := read ∘ normal value) fun member hm ↦ (hk member hm).2
      simp only [Value.members?, Option.map_some, mapValues_mapValues, ha, hn]
  | _ settled => cases settled

private theorem keptBelow_members : KeptBelow n (.map .any) Value.members? .object := by
  intro v _ h
  cases (Grammar.error?_eq_none_iff _ _).mp h with
  | @map value members settled _ =>
    cases settled
    have hn : normal (.map .any) (.object members) = .object members := by
      rw [normal_of_settle_map rfl, funext normal_any, Members.mapValues, List.map_id']
    exact ⟨by rw [hn]; rfl, by rw [hn]⟩
  | _ settled => cases settled

/-- A record is kept if its members are. -/
theorem kept_object {shape : Shape Part} {read : Value → Option α} {build : Entries Value → α}
    {toValue : α → Value} (hr : ∀ members, read (.object members) = some (build members))
    (settled : documentGrammar.settle shape (.object members) = .ok (.record part))
    (kept : RecordKept part build toValue members) : Kept shape read toValue (.object members) := by
  constructor
  · rw [hr, Option.map_some, kept.written, normal_of_settle_record settled]
  · rw [normal_of_settle_record settled, hr, hr, kept.again]

theorem keptBelow_record {read : Value → Option α} {build : Entries Value → α}
    {toValue : α → Value} (hr : ∀ members, read (.object members) = some (build members))
    (kept : ∀ members, documentGrammar.Fits part [] members →
      RecordKept part build toValue members) :
    KeptBelow n (.record part) read toValue := by
  intro v _ h
  cases (Grammar.error?_eq_none_iff _ _).mp h with
  | record settled fits =>
    cases settled
    exact kept_object hr rfl (kept _ fits)
  | _ settled => cases settled

/-- Records are kept where each item of a list or value of a map is one. -/
theorem keptBelow_members_getD {build : Entries Value → α} {toValue : α → Value}
    (kept : ∀ members, documentGrammar.Fits part [] members →
      RecordKept part build toValue members) :
    KeptBelow n (.record part) (fun v ↦ some (build (v.members?.getD []))) toValue :=
  keptBelow_record (fun _ ↦ rfl) kept

end Values

/-! ## Fields -/

section Fields

variable {key : String} {shape : Shape Part}

/-- The value that a field has in normal form. -/
private theorem get?_normalFields_of_field {field : FieldShape Part}
    (hf : documentGrammar.field? part key = some field) (members : Entries Value) :
    Entries.get? (normalFields part members) key =
      (Entries.get? members key).map (normal field.shape) := by
  rw [get?_normalFields, funext (normalIn_of_field hf)]

/-- The value of a field of a record without faults has none in its place. -/
private theorem error?_of_get? {field : FieldShape Part} {v : Value}
    (h : documentGrammar.Fits part [] members)
    (hf : documentGrammar.field? part key = some field)
    (hg : Entries.get? members key = some v)
    (hn : ¬(field.presence = .optional ∧ v.isNull = true)) :
    documentGrammar.error? field.shape v = none := by
  have hv := h.faultless key v (Entries.mem_of_get? hg) field hf
  rw [Grammar.faultIn?, if_neg (by simpa using hn)] at hv
  exact hv

private theorem sizeOf_lt_of_get? {v : Value} (hg : Entries.get? members key = some v) :
    sizeOf v < sizeOf (Value.object members) :=
  Value.sizeOf_lt_object (Entries.mem_of_get? hg)

/-- A field that is not left out stands in the normal form of a record with the normal form of its
value. -/
private theorem normalFields_of_kept {field : FieldShape Part} {v : Value}
    (hf : documentGrammar.field? part key = some field)
    (hg : Entries.get? members key = some v)
    (hn : ¬(field.presence = .optional ∧ v.isNull = true)) :
    Part.written (normalFields part members) field = [(key, normal field.shape v)] ∧
      Entries.get? (arrange part (normalFields part members)) key =
        some (normal field.shape v) := by
  obtain ⟨-, rfl⟩ := field?_eq_some_iff.mp hf
  have hv : Entries.get? (normalFields part members) field.key = some (normal field.shape v) := by
    rw [get?_normalFields_of_field hf, hg, Option.map_some]
  rw [← isNull_normal field.shape] at hn
  refine ⟨?_, (get?_arrange_eq_some_iff hf).mpr ⟨hv, hn⟩⟩
  rw [Part.written, hv]
  exact if_neg hn

/-- A field that is left out does not stand in the normal form of a record. -/
private theorem normalFields_of_dropped {field : FieldShape Part}
    (hf : documentGrammar.field? part key = some field)
    (hn : ∀ v, Entries.get? members key = some v →
      field.presence = .optional ∧ v.isNull = true) :
    Part.written (normalFields part members) field = [] ∧
      Entries.get? (arrange part (normalFields part members)) key = none := by
  obtain ⟨-, rfl⟩ := field?_eq_some_iff.mp hf
  have hv (w : Value) (hw : Entries.get? (normalFields part members) field.key = some w) :
      field.presence = .optional ∧ w.isNull = true := by
    rw [get?_normalFields_of_field hf] at hw
    obtain ⟨v, hg, rfl⟩ := Option.map_eq_some_iff.mp hw
    rw [isNull_normal]
    exact hn v hg
  constructor
  · rw [Part.written]
    split
    · next w hw => exact if_pos (hv w hw)
    · rfl
  · rw [Option.eq_none_iff_forall_ne_some]
    intro w hw
    obtain ⟨hg, hw'⟩ := (get?_arrange_eq_some_iff hf).mp hw
    exact hw' (hv w hg)

/-- A field that may be left out is kept if its value is. What is left out reads as nothing. -/
private theorem fieldKept_given {field : FieldShape Part} {read : Value → Option α}
    {write : α → Value} (hf : documentGrammar.field? part key = some field)
    (hr : field.presence = .optional → read .null = none)
    (kept : ∀ v, Entries.get? members key = some v →
      ¬(field.presence = .optional ∧ v.isNull = true) → Kept field.shape read write v) :
    FieldKept part members field
      (fun members ↦ (Entries.get? members key).bind read) (Members.given key write) := by
  by_cases hd : ∀ v, Entries.get? members key = some v →
      field.presence = .optional ∧ v.isNull = true
  · have hn : (Entries.get? members key).bind read = none := by
      rw [Option.bind_eq_none_iff]
      intro v hg
      obtain ⟨ho, hv⟩ := hd v hg
      cases v with
      | null => exact hr ho
      | _ => cases hv
    obtain ⟨hw, ha⟩ := normalFields_of_dropped hf hd
    constructor
    · rw [hn, hw]
      rfl
    · rw [hn, ha]
      rfl
  · obtain ⟨v, hv⟩ := not_forall.mp hd
    obtain ⟨hg, hn⟩ := Classical.not_imp.mp hv
    have hk := kept v hg hn
    obtain ⟨hw, ha⟩ := normalFields_of_kept hf hg hn
    obtain ⟨a, hr', he⟩ := Option.map_eq_some_iff.mp hk.written
    constructor
    · rw [hg, hw, Option.bind_some, hr', ← he]
      rfl
    · rw [hg, ha, Option.bind_some, Option.bind_some, hk.again]

/-- A field that may be left out is kept if all values of its shape are. -/
theorem fieldKept_optional {read : Value → Option α} {write : α → Value}
    (h : documentGrammar.Fits part [] members) (key : String)
    (hf : documentGrammar.field? part key = some ⟨key, .optional, shape⟩)
    (hr : read .null = none) (kept : KeptBelow (sizeOf (Value.object members)) shape read write) :
    FieldKept part members ⟨key, .optional, shape⟩
      (fun members ↦ (Entries.get? members key).bind read) (Members.given key write) :=
  fieldKept_given hf (fun _ ↦ hr) fun v hg hn ↦
    kept v (sizeOf_lt_of_get? hg) (error?_of_get? h hf hg hn)

/-- A field that has to be there is kept if its value is. -/
theorem fieldKept_always {read : Value → Option α} {write : α → Value}
    (h : documentGrammar.Fits part [] members) (key : String)
    (hf : documentGrammar.field? part key = some ⟨key, .required, shape⟩)
    (kept : KeptBelow (sizeOf (Value.object members)) shape read write) (default : α) :
    FieldKept part members ⟨key, .required, shape⟩
      (fun members ↦ ((Entries.get? members key).bind read).getD default)
      (fun a ↦ Members.always key (write a)) := by
  have hm := (field?_eq_some_iff.mp hf).1
  have hk := (h.complete _ hm rfl).resolve_left List.not_mem_nil
  obtain ⟨v, hg⟩ := Option.isSome_iff_exists.mp ((Entries.get?_isSome_iff _ _).mpr hk)
  have hn : ¬(Presence.required = .optional ∧ v.isNull = true) := by simp
  have hv := kept v (sizeOf_lt_of_get? hg) (error?_of_get? h hf hg hn)
  obtain ⟨hw, ha⟩ := normalFields_of_kept hf hg hn
  obtain ⟨a, hr, he⟩ := Option.map_eq_some_iff.mp hv.written
  constructor
  · rw [hg, hw, Option.bind_some, hr, ← he]
    rfl
  · rw [hg, ha, Option.bind_some, Option.bind_some, hv.again]

theorem FieldKept.of_eq {field : FieldShape Part} {read read' : Entries Value → β}
    {write : β → Entries Value} (he : ∀ members, read' members = read members)
    (h : FieldKept part members field read write) : FieldKept part members field read' write := by
  constructor
  · rw [he]
    exact h.written
  · rw [he, he]
    exact h.again

section Kinds

variable (h : documentGrammar.Fits part [] members) (key : String) {shape : Shape Part}

include h

theorem fieldKept_text? (hf : documentGrammar.field? part key = some ⟨key, .optional, .text⟩) :
    FieldKept part members ⟨key, .optional, .text⟩ (Members.text? · key)
      (Members.given key .string) :=
  fieldKept_optional h key hf rfl keptBelow_text

theorem fieldKept_text (hf : documentGrammar.field? part key = some ⟨key, .required, .text⟩) :
    FieldKept part members ⟨key, .required, .text⟩ (Members.text · key)
      (fun text ↦ Members.always key (.string text)) :=
  fieldKept_always h key hf keptBelow_text ""

theorem fieldKept_flag? (hf : documentGrammar.field? part key = some ⟨key, .optional, .flag⟩) :
    FieldKept part members ⟨key, .optional, .flag⟩ (Members.flag? · key)
      (Members.given key .bool) :=
  fieldKept_optional h key hf rfl keptBelow_flag

theorem fieldKept_items?
    (hf : documentGrammar.field? part key = some ⟨key, .optional, .list .any⟩) :
    FieldKept part members ⟨key, .optional, .list .any⟩ (Members.items? · key)
      (Members.given key .array) :=
  fieldKept_optional h key hf rfl keptBelow_items

theorem fieldKept_texts?
    (hf : documentGrammar.field? part key = some ⟨key, .optional, .list .text⟩) :
    FieldKept part members ⟨key, .optional, .list .text⟩ (Members.texts? · key)
      (Members.given key .ofStrings) :=
  (fieldKept_optional h key hf rfl keptBelow_texts).of_eq fun _ ↦ Option.map_bind

theorem fieldKept_members?
    (hf : documentGrammar.field? part key = some ⟨key, .optional, .map .any⟩) :
    FieldKept part members ⟨key, .optional, .map .any⟩ (Members.members? · key)
      (Members.given key .object) :=
  fieldKept_optional h key hf rfl keptBelow_members

/-- A field whose `null` counts is kept with it. -/
theorem fieldKept_get? (hf : documentGrammar.field? part key = some ⟨key, .verbatim, .any⟩) :
    FieldKept part members ⟨key, .verbatim, .any⟩ (Entries.get? · key)
      (Members.given key id) := by
  have hk : FieldKept part members ⟨key, .verbatim, .any⟩
      (fun members ↦ (Entries.get? members key).bind some) (Members.given key id) :=
    fieldKept_given hf nofun fun v hg hn ↦
      keptBelow_any v (sizeOf_lt_of_get? hg) (error?_of_get? h hf hg hn)
  exact hk.of_eq fun _ ↦ (Option.bind_fun_some _).symm

/-- A field that is read from any value but `null`. -/
theorem fieldKept_present? {read : Value → α} {write : α → Value}
    (hf : documentGrammar.field? part key = some ⟨key, .optional, shape⟩)
    (kept : KeptBelow (sizeOf (Value.object members)) shape (fun v ↦ some (read v)) write) :
    FieldKept part members ⟨key, .optional, shape⟩
      (fun members ↦ (Members.present? members key).map read) (Members.given key write) := by
  have hp (entries : Entries Value) : (Members.present? entries key).map read =
      (Entries.get? entries key).bind fun v ↦ if v.isNull then none else some (read v) := by
    rw [Members.present?]
    cases Entries.get? entries key with
    | none => rfl
    | some v => cases v <;> rfl
  refine (fieldKept_given hf (fun _ ↦ rfl) fun v hg hn ↦ ?_).of_eq hp
  have hk := kept v (sizeOf_lt_of_get? hg) (error?_of_get? h hf hg hn)
  have hv : v.isNull = false := by simpa using hn
  constructor
  · rw [if_neg (by simp [hv])]
    exact hk.written
  · rw [isNull_normal, hv]
    exact hk.again

theorem fieldKept_record? {inner : Part} {build : Entries Value → α} {toValue : α → Value}
    (hf : documentGrammar.field? part key = some ⟨key, .optional, .record inner⟩)
    (kept : ∀ members, documentGrammar.Fits inner [] members →
      RecordKept inner build toValue members) :
    FieldKept part members ⟨key, .optional, .record inner⟩
      (fun members ↦ (Members.members? members key).map build) (Members.given key toValue) := by
  have hk : KeptBelow (sizeOf (Value.object members)) (.record inner)
      (fun v ↦ v.members?.map build) toValue := keptBelow_record (fun _ ↦ rfl) kept
  exact (fieldKept_optional h key hf rfl hk).of_eq fun _ ↦ Option.map_bind

theorem fieldKept_list? {item : Shape Part} {read : Value → α} {write : α → Value}
    (hf : documentGrammar.field? part key = some ⟨key, .optional, .list item⟩)
    (kept : KeptBelow (sizeOf (Value.object members)) item (fun v ↦ some (read v)) write) :
    FieldKept part members ⟨key, .optional, .list item⟩
      (fun members ↦ (Members.items? members key).map (List.map read))
      (Members.given key fun as ↦ .array (as.map write)) :=
  (fieldKept_optional h key hf rfl (keptBelow_list kept)).of_eq fun _ ↦ Option.map_bind

theorem fieldKept_map? {value : Shape Part} {read : Value → α} {write : α → Value}
    (hf : documentGrammar.field? part key = some ⟨key, .optional, .map value⟩)
    (kept : KeptBelow (sizeOf (Value.object members)) value (fun v ↦ some (read v)) write) :
    FieldKept part members ⟨key, .optional, .map value⟩
      (fun members ↦ (Members.members? members key).map (Members.mapValues read))
      (Members.given key fun as ↦ .object (Members.mapValues write as)) :=
  (fieldKept_optional h key hf rfl (keptBelow_map kept)).of_eq fun _ ↦ Option.map_bind

/-- A field for a list that has to be there. -/
theorem fieldKept_list {item : Shape Part} {read : Value → α} {write : α → Value}
    (hf : documentGrammar.field? part key = some ⟨key, .required, .list item⟩)
    (kept : KeptBelow (sizeOf (Value.object members)) item (fun v ↦ some (read v)) write) :
    FieldKept part members ⟨key, .required, .list item⟩
      (fun members ↦ ((Members.items? members key).getD []).map read)
      (fun as ↦ Members.always key (.array (as.map write))) := by
  refine (fieldKept_always h key hf (keptBelow_list kept) []).of_eq fun entries ↦ ?_
  calc ((Members.items? entries key).getD []).map read
      = ((Members.items? entries key).map (List.map read)).getD [] :=
        (Option.getD_map (List.map read) [] _).symm
    _ = _ := congrArg (Option.getD · []) Option.map_bind

/-- A field for a record that has to be there. -/
theorem fieldKept_record {inner : Part} {build : Entries Value → α} {toValue : α → Value}
    (hf : documentGrammar.field? part key = some ⟨key, .required, .record inner⟩)
    (kept : ∀ members, documentGrammar.Fits inner [] members →
      RecordKept inner build toValue members) :
    FieldKept part members ⟨key, .required, .record inner⟩
      (fun members ↦ build ((Members.members? members key).getD []))
      (fun a ↦ Members.always key (toValue a)) := by
  have hk : KeptBelow (sizeOf (Value.object members)) (.record inner)
      (fun v ↦ v.members?.map build) toValue := keptBelow_record (fun _ ↦ rfl) kept
  refine (fieldKept_always h key hf hk (build [])).of_eq fun entries ↦ ?_
  calc build ((Members.members? entries key).getD [])
      = ((Members.members? entries key).map build).getD (build []) :=
        (Option.getD_map build [] _).symm
    _ = _ := congrArg (Option.getD · (build [])) Option.map_bind

/-- A field that is kept as it is unless it is `null`. -/
theorem fieldKept_value? (hf : documentGrammar.field? part key = some ⟨key, .optional, .any⟩) :
    FieldKept part members ⟨key, .optional, .any⟩ (Members.present? · key)
      (Members.given key id) := by
  have hk : FieldKept part members ⟨key, .optional, .any⟩
      (fun members ↦ (Members.present? members key).map id) (Members.given key id) :=
    fieldKept_present? h key hf keptBelow_any
  exact hk.of_eq fun _ ↦ (congrFun Option.map_id _).symm

end Kinds

/-- Members beside the declared fields are kept as they are. -/
theorem ofMembers_arrange (part : Part) (members : Entries Value) :
    Extensions.ofMembers part (arrange part (normalFields part members)) =
      .ofMembers part members := by
  rw [Extensions.ofMembers, besides_arrange, besides_normalFields, Extensions.ofMembers]

/-- The arrangement of a record, one field after the other. -/
theorem arrange_eq_foldl (part : Part) (members : Entries Value) :
    arrange part (normalFields part members) =
      part.fields.foldl (fun entries field ↦
        entries ++ Part.written (normalFields part members) field) [] ++
        (Extensions.ofMembers part members).entries := by
  rw [arrange, besides_normalFields, List.flatMap_eq_foldl]
  rfl

end Fields

end RpcForge.Part

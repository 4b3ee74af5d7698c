import RpcForge.Json.Shape
import RpcForge.Proofs.Entries

/-!
# Values without faults

When a value has no fault for a shape, put as conditions on its parts. A record has none exactly if
its keys are in order and the value of each of its members has none in its place.
-/

namespace RpcForge.Json.Grammar

variable {ρ : Type} {g : Grammar ρ}

/-- The fault of a value in a place where `null` may do. -/
def faultIn? (g : Grammar ρ) (shape : Shape ρ) (nullable : Bool) (v : Value) : Option ShapeError :=
  if nullable && v.isNull then none else g.error? shape v

/-- Where `null` does not do, all faults count. -/
theorem faultIn?_false (shape : Shape ρ) (v : Value) :
    g.faultIn? shape false v = g.error? shape v :=
  rfl

/-- What is not `null` has the same faults in every place. -/
theorem faultIn?_of_not_isNull {shape : Shape ρ} {nullable : Bool} {v : Value}
    (h : v.isNull = false) : g.faultIn? shape nullable v = g.error? shape v := by
  rw [faultIn?, h, Bool.and_false]
  rfl

theorem error?_any (v : Value) : g.error? .any v = none := by
  cases v <;> rfl

theorem itemError?_eq_none_iff (shape : Shape ρ) (vs : List Value) :
    g.itemError? shape vs = none ↔ ∀ v ∈ vs, g.error? shape v = none := by
  induction vs with
  | nil => simp [itemError?]
  | cons v vs ih => rw [itemError?, Option.or_eq_none_iff, ih, List.forall_mem_cons]

theorem memberError?_eq_none_iff (shape : Shape ρ) (members : Entries Value) :
    g.memberError? shape members = none ↔
      ∀ member ∈ members, g.error? shape member.2 = none := by
  induction members with
  | nil => simp [memberError?]
  | cons member rest ih =>
    obtain ⟨key, v⟩ := member
    rw [memberError?, Option.or_eq_none_iff, ih, List.forall_mem_cons]

theorem fieldError?_cons (name : ρ) (seen : List String) (key : String) (v : Value)
    (rest : Entries Value) :
    g.fieldError? name seen ((key, v) :: rest) =
      match g.slot name seen key with
      | .error e => some e
      | .ok (shape, nullable) =>
        (g.faultIn? shape nullable v).or (g.fieldError? name (key :: seen) rest) := rfl

/-- Which keys were seen before matters, and not in which order. -/
theorem fieldError?_congr (name : ρ) {seen seen' : List String}
    (h : ∀ key, key ∈ seen ↔ key ∈ seen') (members : Entries Value) :
    g.fieldError? name seen members = g.fieldError? name seen' members := by
  have hc (key : String) : seen.contains key = seen'.contains key := by
    rw [Bool.eq_iff_iff, List.contains_iff_mem, List.contains_iff_mem, h]
  induction members generalizing seen seen' with
  | nil => simp only [fieldError?, missing?, hc]
  | cons member rest ih =>
    obtain ⟨key, v⟩ := member
    have hk : ∀ other, other ∈ key :: seen ↔ other ∈ key :: seen' := by
      intro other
      rw [List.mem_cons, List.mem_cons, h]
    have hs : g.slot name seen key = g.slot name seen' key := by simp only [slot, hc]
    rw [fieldError?_cons, fieldError?_cons, hs]
    rw [ih hk fun other ↦ by
      rw [Bool.eq_iff_iff, List.contains_iff_mem, List.contains_iff_mem, hk]]

/-! ## Members of a record -/

/-- The members of a record are in order, after the keys `seen` so far. -/
structure Fits (g : Grammar ρ) (name : ρ) (seen : List String) (members : Entries Value) :
    Prop where
  /-- A record that refuses other keys has none. -/
  known : g.isClosed name = true → ∀ key ∈ Entries.keys members, (g.field? name key).isSome = true
  /-- No field was seen before. -/
  fresh : ∀ key ∈ Entries.keys members, (g.field? name key).isSome = true → key ∉ seen
  /-- No field stands there twice. -/
  distinct : ((Entries.keys members).filter fun key ↦ (g.field? name key).isSome).Nodup
  /-- The value of a field has no fault in its place. -/
  faultless : ∀ key v, (key, v) ∈ members → ∀ field, g.field? name key = some field →
    g.faultIn? field.shape (field.presence == .optional) v = none
  /-- All fields that have to be there are. -/
  complete : ∀ field ∈ g.fields name, field.presence = .required →
    field.key ∈ seen ∨ field.key ∈ Entries.keys members

theorem missing?_eq_none_iff (name : ρ) (seen : List String) :
    g.missing? name seen = none ↔
      ∀ field ∈ g.fields name, field.presence = .required → field.key ∈ seen := by
  rw [missing?, Option.map_eq_none_iff, List.find?_eq_none]
  simp

private theorem fits_nil_iff (name : ρ) (seen : List String) :
    g.Fits name seen [] ↔ g.missing? name seen = none := by
  rw [missing?_eq_none_iff]
  constructor
  · intro h field hf hr
    simpa [Entries.keys] using h.complete field hf hr
  · intro h
    exact ⟨by simp [Entries.keys], by simp [Entries.keys], by simp [Entries.keys], by simp,
      fun field hf hr ↦ .inl (h field hf hr)⟩

private theorem keys_cons (key : String) (v : Value) (rest : Entries Value) :
    Entries.keys ((key, v) :: rest) = key :: Entries.keys rest := rfl

/-- A member of a record is in order behind the keys `seen`, whatever stands behind it. -/
structure Admits (g : Grammar ρ) (name : ρ) (seen : List String) (key : String) (v : Value) :
    Prop where
  /-- A record that refuses other keys knows this one. -/
  known : g.isClosed name = true → (g.field? name key).isSome = true
  /-- A field was not seen before. -/
  fresh : (g.field? name key).isSome = true → key ∉ seen
  /-- The value of a field has no fault in its place. -/
  faultless : ∀ field, g.field? name key = some field →
    g.faultIn? field.shape (field.presence == .optional) v = none

/-- A key that is no field is in order unless the record refuses it. -/
private theorem admits_other_iff {name : ρ} {key : String} (hk : g.field? name key = none)
    (seen : List String) (v : Value) : g.Admits name seen key v ↔ g.isClosed name = false := by
  constructor
  · intro h
    rw [← Bool.not_eq_true]
    intro hc
    simpa [hk] using h.known hc
  · intro ho
    exact ⟨by simp [ho], by simp [hk], by simp [hk]⟩

/-- A field is in order if it was not seen before and its value has no fault. -/
private theorem admits_field_iff {name : ρ} {key : String} {field : FieldShape ρ}
    (hk : g.field? name key = some field) (seen : List String) (v : Value) :
    g.Admits name seen key v ↔
      key ∉ seen ∧ g.faultIn? field.shape (field.presence == .optional) v = none := by
  have hs : (g.field? name key).isSome = true := by rw [hk]; rfl
  constructor
  · intro h
    exact ⟨h.fresh hs, h.faultless field hk⟩
  · rintro ⟨hn, hv⟩
    refine ⟨fun _ ↦ hs, fun _ ↦ hn, fun other ho ↦ ?_⟩
    rw [hk, Option.some.injEq] at ho
    exact ho ▸ hv

/-- The key of the first member counts as seen for the members behind it. -/
private theorem mem_seen_or_mem_keys_cons_iff {seen : List String} {key other : String} {v : Value}
    {rest : Entries Value} :
    other ∈ seen ∨ other ∈ Entries.keys ((key, v) :: rest) ↔
      other ∈ key :: seen ∨ other ∈ Entries.keys rest := by
  rw [keys_cons, List.mem_cons, List.mem_cons, or_left_comm, or_assoc]

/-- Members are in order if the first one is, and the others are behind it. -/
private theorem fits_cons_iff {name : ρ} {seen : List String} {key : String} {v : Value}
    {rest : Entries Value} :
    g.Fits name seen ((key, v) :: rest) ↔
      g.Admits name seen key v ∧ g.Fits name (key :: seen) rest := by
  constructor
  · intro h
    -- a field that comes again behind itself would stand there twice
    have hd (hs : (g.field? name key).isSome = true) : key ∉ Entries.keys rest := by
      have hd := h.distinct
      rw [keys_cons, List.filter_cons, if_pos hs, List.nodup_cons] at hd
      exact fun hm ↦ hd.1 (List.mem_filter.mpr ⟨hm, hs⟩)
    refine ⟨⟨fun hc ↦ h.known hc key (.head _), h.fresh key (.head _),
      h.faultless key v (.head _)⟩, ?_, ?_, ?_, ?_, ?_⟩
    · intro hc k hm
      exact h.known hc k (List.mem_cons_of_mem _ hm)
    · intro k hm hs
      rw [List.mem_cons, not_or]
      refine ⟨?_, h.fresh k (List.mem_cons_of_mem _ hm) hs⟩
      rintro rfl
      exact hd hs hm
    · exact h.distinct.sublist ((List.sublist_cons_self _ _).filter _)
    · intro k w hm
      exact h.faultless k w (List.mem_cons_of_mem _ hm)
    · intro field hf hr
      exact mem_seen_or_mem_keys_cons_iff.mp (h.complete field hf hr)
  · rintro ⟨ha, h⟩
    refine ⟨?_, ?_, ?_, ?_, ?_⟩
    · intro hc k hm
      rcases List.mem_cons.mp hm with rfl | hm
      · exact ha.known hc
      · exact h.known hc k hm
    · intro k hm hs
      rcases List.mem_cons.mp hm with rfl | hm
      · exact ha.fresh hs
      · exact fun hn ↦ h.fresh k hm hs (List.mem_cons_of_mem _ hn)
    · rw [keys_cons, List.filter_cons]
      split
      · next hs =>
        refine List.nodup_cons.mpr ⟨fun hm ↦ ?_, h.distinct⟩
        exact h.fresh key (List.mem_filter.mp hm).1 hs (.head _)
      · exact h.distinct
    · intro k w hm
      rcases List.mem_cons.mp hm with he | hm
      · cases he
        exact ha.faultless
      · exact h.faultless k w hm
    · intro field hf hr
      exact mem_seen_or_mem_keys_cons_iff.mpr (h.complete field hf hr)

/-- Members have no fault exactly if they are in order. -/
theorem fieldError?_eq_none_iff (name : ρ) (seen : List String) (members : Entries Value) :
    g.fieldError? name seen members = none ↔ g.Fits name seen members := by
  induction members generalizing seen with
  | nil => exact (fits_nil_iff name seen).symm
  | cons member rest ih =>
    obtain ⟨key, v⟩ := member
    rw [fieldError?_cons, fits_cons_iff]
    cases hk : g.field? name key with
    | none =>
      rw [admits_other_iff hk]
      cases hc : g.isClosed name with
      | true => simp [slot, hk, hc]
      | false => simp [slot, hk, hc, ih, faultIn?, error?_any]
    | some field =>
      rw [admits_field_iff hk]
      by_cases hn : key ∈ seen
      · simp [slot, hk, hn]
      · simp [slot, hk, hn, ih]

/-! ## One level of a value -/

/-- A value has the shape that a shape settles to for it, with no fault one level below. -/
inductive Accepts (g : Grammar ρ) (shape : Shape ρ) : Value → Prop
  /-- Any value will do. -/
  | any {v : Value} (settled : g.settle shape v = .ok .any) : Accepts g shape v
  /-- A string. -/
  | text {s : String} (settled : g.settle shape (.string s) = .ok .text) :
    Accepts g shape (.string s)
  /-- A truth value. -/
  | flag {b : Bool} (settled : g.settle shape (.bool b) = .ok .flag) : Accepts g shape (.bool b)
  /-- An array of items without faults. -/
  | list {item : Shape ρ} {vs : List Value}
    (settled : g.settle shape (.array vs) = .ok (.list item))
    (items : ∀ v ∈ vs, g.error? item v = none) : Accepts g shape (.array vs)
  /-- An object of values without faults. -/
  | map {value : Shape ρ} {members : Entries Value}
    (settled : g.settle shape (.object members) = .ok (.map value))
    (values : ∀ member ∈ members, g.error? value member.2 = none) :
    Accepts g shape (.object members)
  /-- A record whose members are in order. -/
  | record {name : ρ} {members : Entries Value}
    (settled : g.settle shape (.object members) = .ok (.record name))
    (fits : g.Fits name [] members) : Accepts g shape (.object members)

/-- A value has no fault exactly if it has the shape that is asked for. -/
theorem error?_eq_none_iff (shape : Shape ρ) (v : Value) :
    g.error? shape v = none ↔ g.Accepts shape v := by
  constructor
  · intro h
    rw [error?.eq_def] at h
    split at h
    · cases h
    · next hs => exact .any hs
    · next hs => exact .text hs
    · next hs => exact .flag hs
    · next hs => exact .list hs ((itemError?_eq_none_iff _ _).mp h)
    · next hs => exact .map hs ((memberError?_eq_none_iff _ _).mp h)
    · next hs => exact .record hs ((fieldError?_eq_none_iff _ _ _).mp h)
    · cases h
  · intro h
    rw [error?.eq_def]
    cases h with
    | any settled => rw [settled]
    | text settled => rw [settled]
    | flag settled => rw [settled]
    | list settled items =>
      rw [settled]
      exact (itemError?_eq_none_iff _ _).mpr items
    | map settled values =>
      rw [settled]
      exact (memberError?_eq_none_iff _ _).mpr values
    | record settled fits =>
      rw [settled]
      exact (fieldError?_eq_none_iff _ _ _).mpr fits

/-- A value without faults has a shape to be judged by. -/
theorem exists_settle {shape : Shape ρ} {v : Value} (h : g.error? shape v = none) :
    ∃ settled, g.settle shape v = .ok settled := by
  cases (error?_eq_none_iff shape v).mp h with
  | any settled => exact ⟨_, settled⟩
  | text settled => exact ⟨_, settled⟩
  | flag settled => exact ⟨_, settled⟩
  | list settled _ => exact ⟨_, settled⟩
  | map settled _ => exact ⟨_, settled⟩
  | record settled _ => exact ⟨_, settled⟩

end RpcForge.Json.Grammar

namespace RpcForge.Json.Value

/-- An item is smaller than its array. -/
theorem sizeOf_lt_array {v : Value} {vs : List Value} (h : v ∈ vs) :
    sizeOf v < sizeOf (Value.array vs) := by
  have hl := List.sizeOf_lt_of_mem h
  simp only [array.sizeOf_spec]
  omega

/-- The value of a member is smaller than its object. -/
theorem sizeOf_lt_object {member : String × Value} {members : Entries Value}
    (h : member ∈ members) : sizeOf member.2 < sizeOf (Value.object members) := by
  have hl := List.sizeOf_lt_of_mem h
  have hm : sizeOf member = 1 + sizeOf member.1 + sizeOf member.2 := by
    cases member
    rfl
  simp only [object.sizeOf_spec]
  omega

end RpcForge.Json.Value

import RpcForge.Proofs.Document.Wellformed
import RpcForge.Proofs.Entries
import RpcForge.Proofs.Json.Shape

/-!
# Runs of insertions

Extensions that come from putting in values one after the other have keys of extensions only, in the
order in which these were first put in, and under each key the value that was put in last. What is
read from an object may have other keys; it is checked by the rule that insertions obey.
-/

namespace RpcForge

open RpcForge.Json

namespace Entries

variable {α : Type}

/-- Entries hold what was written under keys one after the other: the keys in the order of their
first writes, each with the value of its last write. -/
structure HoldsWrites (entries writes : Entries α) : Prop where
  /-- Every key that was written stands there once. -/
  keys_eq : keys entries = (keys writes).eraseDups
  /-- A value was written under its key, and nothing was after that. -/
  last : ∀ key value, (key, value) ∈ entries →
    ∃ before after, writes = before ++ (key, value) :: after ∧ key ∉ keys after

private theorem holdsWrites_nil : HoldsWrites ([] : Entries α) [] where
  keys_eq := rfl
  last := nofun

/-- Putting a value is one more write. -/
theorem HoldsWrites.insert {entries writes : Entries α} (h : HoldsWrites entries writes)
    (key : String) (value : α) :
    HoldsWrites (entries.insert key value) (writes ++ [(key, value)]) := by
  have hk : key ∈ keys entries ↔ key ∈ keys writes := by rw [h.keys_eq, List.mem_eraseDups]
  have hd : (keys entries).Nodup := h.keys_eq ▸ nodup_eraseDups _
  constructor
  case keys_eq =>
    have hs : keys [(key, value)] = [key] := rfl
    rw [keys_insert, keys_append, hs, eraseDups_concat, ← h.keys_eq]
    simp only [hk]
  case last =>
    intro k v hm
    rcases (mem_insert_iff hd key value k v).mp hm with ⟨rfl, rfl⟩ | ⟨hne, hm⟩
    · exact ⟨writes, [], rfl, List.not_mem_nil⟩
    · obtain ⟨before, after, rfl, ha⟩ := h.last k v hm
      refine ⟨before, after ++ [(key, value)], by rw [List.append_assoc, List.cons_append], ?_⟩
      rw [keys_append, List.mem_append, not_or]
      exact ⟨ha, fun hl ↦ hne (List.mem_singleton.mp hl)⟩

end Entries

namespace Extensions

open Wellformed (IsExtensionKey)

instance (key : String) : Decidable (IsExtensionKey key) :=
  decidable_of_iff (checkKey key = .ok ()) (checkKey_eq_ok_iff key)

/-- The extensions after an attempt to put a value under a key; where it is refused, they stay as
they are. -/
def tryInsert (extensions : Extensions) (key : String) (v : Value) : Extensions :=
  match extensions.insert key v with
  | .ok changed => changed
  | .error _ => extensions

/-- The extensions after attempts to put values under keys, one after the other. -/
def ofCalls (calls : Entries Value) : Extensions :=
  calls.foldl (fun extensions call ↦ extensions.tryInsert call.1 call.2) .empty

/-- The attempts whose keys are keys of extensions. -/
def accepted (calls : Entries Value) : Entries Value :=
  calls.filter fun call ↦ IsExtensionKey call.1

/-! ## One insertion -/

/-- An insertion is refused with the fault of its key, whatever is there already. -/
theorem insert_eq_error_iff (extensions : Extensions) (key : String) (v : Value)
    (e : DocumentError) : extensions.insert key v = .error e ↔ checkKey key = .error e := by
  rw [insert, bind_eq_error_iff]
  constructor
  · rintro (h | ⟨_, _, h⟩)
    · exact h
    · cases h
  · exact .inl

/-- An insertion puts the value under the key, if that is the key of an extension. -/
theorem insert_eq_ok_iff (extensions : Extensions) (key : String) (v : Value)
    (changed : Extensions) : extensions.insert key v = .ok changed ↔
      IsExtensionKey key ∧ changed = ⟨extensions.entries.insert key v⟩ := by
  rw [insert, bind_eq_ok_iff, ← checkKey_eq_ok_iff]
  constructor
  · rintro ⟨⟨⟩, hk, h⟩
    exact ⟨hk, (Except.ok.inj h).symm⟩
  · rintro ⟨hk, rfl⟩
    exact ⟨(), hk, rfl⟩

theorem exists_insert_eq_ok_iff (extensions : Extensions) (key : String) (v : Value) :
    (∃ changed, extensions.insert key v = .ok changed) ↔ IsExtensionKey key := by
  simp only [insert_eq_ok_iff, exists_and_left, exists_eq, and_true]

private theorem tryInsert_of_isExtensionKey {key : String} (h : IsExtensionKey key)
    (extensions : Extensions) (v : Value) :
    extensions.tryInsert key v = ⟨extensions.entries.insert key v⟩ := by
  rw [tryInsert, (insert_eq_ok_iff extensions key v _).mpr ⟨h, rfl⟩]

/-- An insertion that is refused changes nothing. -/
private theorem tryInsert_of_insert_eq_error {extensions : Extensions} {key : String} {v : Value}
    {e : DocumentError} (h : extensions.insert key v = .error e) :
    extensions.tryInsert key v = extensions := by
  rw [tryInsert, h]

private theorem tryInsert_of_not_isExtensionKey {key : String} (h : ¬IsExtensionKey key)
    (extensions : Extensions) (v : Value) : extensions.tryInsert key v = extensions := by
  cases hi : extensions.insert key v with
  | error e => exact tryInsert_of_insert_eq_error hi
  | ok changed => exact absurd ((insert_eq_ok_iff _ _ _ _).mp hi).1 h

/-! ## Runs -/

private theorem ofCalls_concat (calls : Entries Value) (call : String × Value) :
    ofCalls (calls ++ [call]) = (ofCalls calls).tryInsert call.1 call.2 := by
  rw [ofCalls, List.foldl_append]
  rfl

/-- After a run of insertions the extensions hold what was accepted. -/
private theorem holdsWrites_ofCalls (calls : Entries Value) :
    Entries.HoldsWrites (ofCalls calls).entries (accepted calls) := by
  induction calls using List.reverseRecOn with
  | nil => exact Entries.holdsWrites_nil
  | append_singleton calls call ih =>
    rw [ofCalls_concat, accepted, List.filter_append, ← accepted]
    -- The last attempt is either one more write or none at all.
    by_cases hk : IsExtensionKey call.1
    · rw [tryInsert_of_isExtensionKey hk, List.filter_cons_of_pos (by simpa using hk)]
      exact ih.insert call.1 call.2
    · rw [tryInsert_of_not_isExtensionKey hk, List.filter_cons_of_neg (by simpa using hk),
        List.filter_nil, List.append_nil]
      exact ih

/-- After a run of insertions all keys are keys of extensions. -/
private theorem valid_ofCalls (calls : Entries Value) : (ofCalls calls).Valid := by
  intro key hk
  rw [keys, (holdsWrites_ofCalls calls).keys_eq, List.mem_eraseDups] at hk
  obtain ⟨call, hm, rfl⟩ := List.mem_map.mp hk
  simpa using (List.mem_filter.mp hm).2

/-! ## Checking what was read -/

/-- Every object can be read as extensions, with its members in order. -/
private theorem ofValue_object (members : Entries Value) :
    ofValue (.object members) = .ok ⟨members⟩ := by
  have hs : documentGrammar.error? (.map .any) (.object members) = none :=
    (Grammar.error?_eq_none_iff _ _).mpr (.map rfl fun member _ ↦ Grammar.error?_any member.2)
  rw [ofValue, Part.decode, hs]
  rfl

/-- Extensions are refused with the fault of the first key that an insertion refuses. -/
theorem check_eq_error_iff (extensions : Extensions) (e : DocumentError) :
    extensions.check = .error e ↔ ∃ before key after, extensions.keys = before ++ key :: after ∧
      (∀ k ∈ before, IsExtensionKey k) ∧ checkKey key = .error e := by
  rw [check, Check.all_eq_error_iff]
  simp only [checkKey_eq_ok_iff]

/-- Extensions are refused exactly if one of their keys is not the key of an extension. -/
theorem exists_check_eq_error_iff (extensions : Extensions) :
    (∃ e, extensions.check = .error e) ↔ ∃ key ∈ extensions.keys, ∃ e, checkKey key = .error e := by
  simp only [Check.exists_eq_error_iff, ne_eq, check, Check.all_eq_ok_iff, not_forall, exists_prop]

/-- Insertions one after the other lead to valid extensions that hold what was accepted, and those
that are refused change nothing. Which ones are refused depends on the key alone. Whatever object is
read as extensions, the check refuses it exactly if an insertion would refuse one of the keys, with
the error of the first such key. -/
theorem insertions_outcome :
    (∀ calls : Entries Value,
      (ofCalls calls).check = .ok () ∧
      Entries.HoldsWrites (ofCalls calls).entries (accepted calls) ∧
      ∀ (call : String × Value) (e : DocumentError),
        (ofCalls calls).insert call.1 call.2 = .error e →
          ofCalls (calls ++ [call]) = ofCalls calls) ∧
    (∀ (extensions : Extensions) (key : String) (v : Value),
      (∃ changed, extensions.insert key v = .ok changed) ↔ IsExtensionKey key) ∧
    ∀ members : Entries Value, ∃ parsed, ofValue (.object members) = .ok parsed ∧
      parsed.entries = members ∧
      ((∃ e, parsed.check = .error e) ↔ ∃ key ∈ parsed.keys, ∀ v, ∃ e,
        parsed.insert key v = .error e) ∧
      ∀ e, parsed.check = .error e ↔
        ∃ before key after, parsed.keys = before ++ key :: after ∧
          (∀ k ∈ before, ∀ v, ∃ changed, parsed.insert k v = .ok changed) ∧
          ∀ v, parsed.insert key v = .error e := by
  refine ⟨fun calls ↦ ⟨?_, holdsWrites_ofCalls calls, fun call e hr ↦ ?_⟩,
    exists_insert_eq_ok_iff, fun members ↦ ⟨_, ofValue_object members, rfl, ?_, fun e ↦ ?_⟩⟩
  · exact (check_eq_ok_iff _).mpr (valid_ofCalls calls)
  · rw [ofCalls_concat, tryInsert_of_insert_eq_error hr]
  · simp only [exists_check_eq_error_iff, insert_eq_error_iff, forall_const]
  · simp only [check_eq_error_iff, exists_insert_eq_ok_iff, insert_eq_error_iff, forall_const]

/-- Attempts of all kinds: a key that is no extension, and a key that is written twice. -/
def mixedCalls : Entries Value :=
  [("x-rate", .string "slow"), ("rate", .null), ("x-tier", .bool true), ("x-rate", .string "fast")]

/-- A key without a name is refused, and nothing changes. Of the attempts before it the one without
the prefix was refused too, and the second under a key replaced the value of the first. -/
theorem insertions_outcome_mixed :
    (ofCalls mixedCalls).insert "x-" .null =
        .error (.validation "Extension key must have content after 'x-': x-" none) ∧
      ofCalls (mixedCalls ++ [("x-", .null)]) = ofCalls mixedCalls ∧
      (ofCalls mixedCalls).check = .ok () ∧
      (ofCalls mixedCalls).entries = [("x-rate", .string "fast"), ("x-tier", .bool true)] := by
  have hr : (ofCalls mixedCalls).insert "x-" .null =
      .error (.validation "Extension key must have content after 'x-': x-" none) := rfl
  obtain ⟨valid, -, kept⟩ := insertions_outcome.1 mixedCalls
  exact ⟨hr, kept ("x-", .null) _ hr, valid, rfl⟩

end Extensions

end RpcForge

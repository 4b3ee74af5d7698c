import Mathlib.Data.List.Induction
import Mathlib.Data.List.Nodup
import RpcForge.Entries

/-!
# Laws of keyed entries

Looking up, putting and listing keys, each stated through the list of keys. Two entries may share a
key as far as the type goes; the laws that need distinct keys say so.
-/

namespace RpcForge

/-- Keeping first occurrences after one more element: it is kept if it is new. -/
theorem eraseDups_concat {α : Type} [BEq α] [LawfulBEq α] (as : List α) (b : α) :
    (as ++ [b]).eraseDups = if b ∈ as then as.eraseDups else as.eraseDups ++ [b] := by
  rw [List.eraseDups_append]
  split
  · next h => simp [List.removeAll, h]
  · next h => simp [List.removeAll, h, List.eraseDups_cons]

/-- Keeping first occurrences drops what is there already. -/
theorem eraseDups_append_cons_of_mem {α : Type} [BEq α] [LawfulBEq α] {front : List α} {a : α}
    (h : a ∈ front) (rest : List α) :
    (front ++ a :: rest).eraseDups = (front ++ rest).eraseDups := by
  rw [List.eraseDups_append, List.eraseDups_append, List.cons_removeAll, if_neg (by simpa using h)]

/-- Keeping first occurrences leaves no repetition. -/
theorem nodup_eraseDups {α : Type} [BEq α] [LawfulBEq α] (as : List α) : as.eraseDups.Nodup := by
  induction as using List.reverseRecOn with
  | nil => simp
  | append_singleton as b ih =>
    rw [eraseDups_concat]
    split
    · exact ih
    · next h =>
      apply ih.append (List.nodup_singleton b)
      intro x hx hb
      rw [List.mem_singleton.mp hb, List.mem_eraseDups] at hx
      exact h hx

/-- First occurrences stay the same under a function that keeps the elements apart. -/
theorem eraseDups_map {α β : Type} [BEq α] [LawfulBEq α] [BEq β] [LawfulBEq β] {f : α → β}
    {as : List α} (hf : ∀ a ∈ as, ∀ b ∈ as, f a = f b → a = b) :
    (as.map f).eraseDups = as.eraseDups.map f := by
  induction as using List.reverseRecOn with
  | nil => simp
  | append_singleton as b ih =>
    have hb : f b ∈ as.map f ↔ b ∈ as := by
      rw [List.mem_map]
      constructor
      · rintro ⟨a, ha, he⟩
        rw [← hf a (List.mem_append_left _ ha) b (by simp) he]
        exact ha
      · exact fun h ↦ ⟨b, h, rfl⟩
    have ih := ih fun a ha c hc ↦ hf a (List.mem_append_left _ ha) c (List.mem_append_left _ hc)
    rw [List.map_append, List.map_singleton, eraseDups_concat, eraseDups_concat, ih]
    by_cases h : b ∈ as
    · rw [if_pos (hb.mpr h), if_pos h]
    · rw [if_neg (mt hb.mp h), if_neg h, List.map_append, List.map_singleton]

namespace Entries

variable {α : Type}

/-- A key is in use exactly if it is listed. -/
theorem contains_iff (entries : Entries α) (key : String) :
    contains entries key = true ↔ key ∈ keys entries := by
  rw [contains, List.any_eq_true, keys, List.mem_map]
  simp only [beq_iff_eq]

/-- Whether a key is in use, as a negative answer. -/
theorem contains_eq_false_iff (entries : Entries α) (key : String) :
    contains entries key = false ↔ key ∉ keys entries := by
  rw [← contains_iff, Bool.not_eq_true]

/-- A key without a value is one that is not listed. -/
theorem get?_eq_none_iff (entries : Entries α) (key : String) :
    get? entries key = none ↔ key ∉ keys entries := by
  rw [get?, List.lookup_eq_none_iff, keys, List.mem_map]
  constructor
  · rintro h ⟨entry, hm, rfl⟩
    simpa using h entry hm
  · intro h entry hm
    simpa using fun he ↦ h ⟨entry, hm, he.symm⟩

/-- A key has a value exactly if it is listed. -/
theorem get?_isSome_iff (entries : Entries α) (key : String) :
    (get? entries key).isSome = true ↔ key ∈ keys entries := by
  rw [Option.isSome_iff_ne_none, ne_eq, get?_eq_none_iff, not_not]

/-- The value of a key stands among the entries. -/
theorem mem_of_get? {entries : Entries α} {key : String} {value : α}
    (h : get? entries key = some value) : (key, value) ∈ entries := by
  obtain ⟨before, after, he, _⟩ := List.lookup_eq_some_iff.mp h
  simp [he]

/-- The key of an entry is listed. -/
theorem mem_keys {entries : Entries α} {key : String} {value : α} (h : (key, value) ∈ entries) :
    key ∈ keys entries :=
  List.mem_map.mpr ⟨(key, value), h, rfl⟩

/-- A listed key has an entry. -/
theorem exists_mem_of_mem_keys {entries : Entries α} {key : String} (h : key ∈ keys entries) :
    ∃ value, (key, value) ∈ entries := by
  obtain ⟨⟨k, value⟩, hm, rfl⟩ := List.mem_map.mp h
  exact ⟨value, hm⟩

/-- Where keys differ, every entry is the value of its key. -/
theorem get?_of_mem {entries : Entries α} (hd : (keys entries).Nodup) {key : String} {value : α}
    (h : (key, value) ∈ entries) : get? entries key = some value := by
  induction entries with
  | nil => simp at h
  | cons entry rest ih =>
    obtain ⟨k, v⟩ := entry
    obtain ⟨hk, hr⟩ := List.nodup_cons.mp hd
    rcases List.mem_cons.mp h with he | hm
    · cases he
      simp [get?]
    · have hne : key ≠ k := fun e ↦ hk (e ▸ mem_keys hm)
      rw [get?, List.lookup_cons, beq_eq_false_iff_ne.mpr hne]
      exact ih hr hm

theorem keys_append (entries entries' : Entries α) :
    keys (entries ++ entries') = keys entries ++ keys entries' :=
  List.map_append

theorem keys_besides (entries : Entries α) (known : List String) :
    keys (besides entries known) = (keys entries).filter fun key ↦ !known.contains key := by
  rw [keys, besides, keys, List.filter_map]
  rfl

/-- The value of a key among the entries of two lists is that in the first one, if there is one. -/
theorem get?_append (entries entries' : Entries α) (key : String) :
    get? (entries ++ entries') key = (get? entries key).or (get? entries' key) :=
  List.lookup_append

/-- Changing values in their places changes the value that a key has. -/
theorem get?_map {β : Type} (f : String → α → β) (entries : Entries α) (key : String) :
    get? (entries.map fun entry ↦ (entry.1, f entry.1 entry.2)) key =
      (get? entries key).map (f key) := by
  induction entries with
  | nil => rfl
  | cons entry rest ih =>
    obtain ⟨k, v⟩ := entry
    by_cases he : key = k
    · simp [get?, he]
    · rw [get?, List.map_cons, List.lookup_cons, beq_eq_false_iff_ne.mpr he]
      rw [get?, List.lookup_cons, beq_eq_false_iff_ne.mpr he]
      exact ih

/-- Leaving out given keys leaves the values of all others. -/
theorem get?_besides (entries : Entries α) (known : List String) (key : String) :
    get? (besides entries known) key = if key ∈ known then none else get? entries key := by
  induction entries with
  | nil => simp [besides, get?]
  | cons entry rest ih =>
    obtain ⟨k, v⟩ := entry
    rw [besides, List.filter_cons]
    by_cases he : key = k
    · subst he
      by_cases hk : key ∈ known
      · rw [if_pos hk] at ih ⊢
        rw [if_neg (by simpa using hk)]
        exact ih
      · simp [get?, hk]
    · have hc (es : Entries α) : get? ((k, v) :: es) key = get? es key := by
        rw [get?, List.lookup_cons, beq_eq_false_iff_ne.mpr he, get?]
      rw [hc, ← ih]
      split
      · exact hc _
      · rfl

/-- A key that is not in use is put behind the others. -/
theorem insert_of_not_mem {entries : Entries α} {key : String} (h : key ∉ keys entries)
    (value : α) : insert entries key value = entries ++ [(key, value)] := by
  induction entries with
  | nil => rfl
  | cons entry rest ih =>
    obtain ⟨k, v⟩ := entry
    simp only [keys, List.map_cons, List.mem_cons, not_or] at h
    simp [insert, Ne.symm h.1, ih h.2]

/-- Putting a value keeps the keys in their places and adds a new one behind them. -/
theorem keys_insert (entries : Entries α) (key : String) (value : α) :
    keys (insert entries key value) =
      if key ∈ keys entries then keys entries else keys entries ++ [key] := by
  induction entries with
  | nil => rfl
  | cons entry rest ih =>
    obtain ⟨k, v⟩ := entry
    by_cases he : k = key
    · simp [insert, keys, he]
    · have hc (es : Entries α) : keys ((k, v) :: es) = k :: keys es := rfl
      rw [insert, if_neg he, hc, hc, ih]
      by_cases hm : key ∈ keys rest
      · simp [hm]
      · simp [hm, Ne.symm he]

/-- Where keys differ, the entries after putting a value are the new one and those under other
keys. -/
theorem mem_insert_iff {entries : Entries α} (hd : (keys entries).Nodup) (key : String) (value : α)
    (k : String) (v : α) :
    (k, v) ∈ insert entries key value ↔ k = key ∧ v = value ∨ k ≠ key ∧ (k, v) ∈ entries := by
  induction entries with
  | nil => simp [insert]
  | cons entry rest ih =>
    obtain ⟨k', v'⟩ := entry
    obtain ⟨hk, hr⟩ := List.nodup_cons.mp hd
    by_cases he : k' = key
    · subst he
      have hne (hm : (k, v) ∈ rest) : k ≠ k' := fun e ↦ hk (e ▸ mem_keys hm)
      simp only [insert, if_true, List.mem_cons, Prod.mk.injEq]
      constructor
      · rintro (h | hm)
        · exact .inl h
        · exact .inr ⟨hne hm, .inr hm⟩
      · rintro (h | ⟨h, h' | hm⟩)
        · exact .inl h
        · exact absurd h'.1 h
        · exact .inr hm
    · simp only [insert, if_neg he, List.mem_cons, Prod.mk.injEq, ih hr]
      constructor
      · rintro (⟨rfl, rfl⟩ | h | ⟨h, hm⟩)
        · exact .inr ⟨he, .inl ⟨rfl, rfl⟩⟩
        · exact .inl h
        · exact .inr ⟨h, .inr hm⟩
      · rintro (h | ⟨h, h' | hm⟩)
        · exact .inr (.inl h)
        · exact .inl h'
        · exact .inr (.inr ⟨h, hm⟩)

end Entries

end RpcForge

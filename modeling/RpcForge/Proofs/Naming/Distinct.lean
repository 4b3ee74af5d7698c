import Mathlib.Data.List.Forall2
import Mathlib.Data.List.Nodup
import Mathlib.Data.List.Perm.Subperm
import Mathlib.Order.Bounds.Defs
import RpcForge.Naming

/-!
# Names made distinct

Numbers behind repeated names make them distinct. A name that is taken gets the least number that
makes it free: the search for it ends, because every number that it passes over belongs to another
taken name. Each name is kept as it is or gets a number behind it, so the new names have every
property of the old ones that a number does not take away.
-/

namespace RpcForge

/-- Lists that both belong to a third one belong to it together. -/
theorem forall₂_zip_right {α β γ : Type} {R : α → β → Prop} {S : α → γ → Prop} {as : List α}
    {bs : List β} {cs : List γ} (hb : List.Forall₂ R as bs) (hc : List.Forall₂ S as cs) :
    List.Forall₂ (fun a entry ↦ R a entry.1 ∧ S a entry.2) as (bs.zip cs) := by
  induction hb generalizing cs with
  | nil => exact .nil
  | cons h _ ih =>
    cases hc with
    | cons h' hc => exact .cons ⟨h, h'⟩ (ih hc)

namespace Naming

/-- What a name can become for the sake of being distinct: itself, or itself with a number. -/
inductive MadeFrom (name : String) : String → Prop
  /-- The name as it is. -/
  | kept : MadeFrom name name
  /-- The name with a number behind it. -/
  | numbered (k : Nat) : MadeFrom name (numbered name k)

private theorem numbered_injective (name : String) : Function.Injective (numbered name) := by
  intro k l h
  rw [numbered, numbered, String.append_right_inj, Nat.toString_eq_ofList_toDigits,
    Nat.toString_eq_ofList_toDigits, String.ofList_inj] at h
  calc k = Nat.ofDigitChars 10 (Nat.toDigits 10 k) 0 := Nat.ofDigitChars_ten_toDigits.symm
    _ = Nat.ofDigitChars 10 (Nat.toDigits 10 l) 0 := by rw [h]
    _ = l := Nat.ofDigitChars_ten_toDigits

private theorem numbered_ne (name : String) (k : Nat) : numbered name k ≠ name := by
  intro h
  have hl := congrArg String.length h
  simp only [numbered, String.length_append] at hl
  have hu : "_".length = 1 := rfl
  omega

/-- A taken name with as many numbers from two on that are taken as well: there are more taken names
than such numbers. -/
private theorem lt_length_of_numbered_mem {taken : List String} {name : String} {n : Nat}
    (hm : name ∈ taken) (hn : ∀ k < n, numbered name (k + 2) ∈ taken) : n < taken.length := by
  have hs : name :: (List.range n).map (fun k ↦ numbered name (k + 2)) ⊆ taken := by
    intro given hg
    rcases List.mem_cons.mp hg with rfl | hg
    · exact hm
    · obtain ⟨k, hk, rfl⟩ := List.mem_map.mp hg
      exact hn k (List.mem_range.mp hk)
  have hd : (name :: (List.range n).map fun k ↦ numbered name (k + 2)).Nodup := by
    apply List.nodup_cons.mpr
    constructor
    · intro hg
      obtain ⟨k, -, hk⟩ := List.mem_map.mp hg
      exact numbered_ne name _ hk
    · exact List.Nodup.map (fun k l h ↦ Nat.add_right_cancel (numbered_injective name h))
        List.nodup_range
  have hl := (List.subperm_of_subset hd hs).length_le
  rw [List.length_cons, List.length_map, List.length_range] at hl
  omega

/-- What a name becomes behind taken ones: itself if it is free, and otherwise itself with the least
number from two on that makes it free. There is such a number among the first ones. -/
structure FirstFree (taken : List String) (name given : String) : Prop where
  /-- A free name is kept. -/
  kept : name ∉ taken → given = name
  /-- A taken name gets the least number. -/
  numbered : name ∈ taken → ∃ k, IsLeast {k | 2 ≤ k ∧ numbered name k ∉ taken} k ∧
    k ≤ taken.length + 1 ∧ given = numbered name k

private theorem firstFree_fresh (taken : List String) (name : String) :
    FirstFree taken name (fresh taken name) := by
  constructor
  · intro hm
    rw [fresh, if_neg (by simpa using hm)]
  · intro hm
    rw [fresh, if_pos (by simpa using hm), List.find?_map]
    cases hf : (List.range (taken.length + 1)).find?
        ((!taken.contains ·) ∘ fun k ↦ numbered name (k + 2)) with
    | none =>
      -- then all numbers that are tried would be taken
      rw [List.find?_eq_none] at hf
      have hl := lt_length_of_numbered_mem hm (n := taken.length + 1) fun k hk ↦ by
        simpa using hf k (List.mem_range.mpr hk)
      omega
    | some k =>
      rw [List.find?_range_eq_some] at hf
      obtain ⟨hk, -, hb⟩ := hf
      have hb : ∀ l < k, numbered name (l + 2) ∈ taken := fun l hl ↦ by simpa using hb l hl
      have hl := lt_length_of_numbered_mem hm hb
      refine ⟨k + 2, ⟨⟨by omega, by simpa using hk⟩, ?_⟩, by omega, rfl⟩
      rintro l ⟨h2, hn⟩
      by_contra hlt
      apply hn
      have he := hb (l - 2) (by omega)
      rwa [Nat.sub_add_cancel h2] at he

private theorem FirstFree.not_mem {taken : List String} {name given : String}
    (h : FirstFree taken name given) : given ∉ taken := by
  by_cases hm : name ∈ taken
  · obtain ⟨k, hk, -, rfl⟩ := h.numbered hm
    exact hk.1.2
  · rwa [h.kept hm]

theorem FirstFree.madeFrom {taken : List String} {name given : String}
    (h : FirstFree taken name given) : MadeFrom name given := by
  by_cases hm : name ∈ taken
  · obtain ⟨k, -, -, rfl⟩ := h.numbered hm
    exact .numbered k
  · rw [h.kept hm]
    exact .kept

private theorem fresh_not_mem (taken : List String) (name : String) : fresh taken name ∉ taken :=
  (firstFree_fresh taken name).not_mem

/-! ## The search for a number -/

/-- A search for a free name. A candidate is tried, and as long as it is taken, the name is tried
with the next number. -/
inductive Search (taken : List String) (name : String) : String → Nat → String → Prop
  /-- The candidate is free. -/
  | done {candidate : String} {next : Nat} (free : candidate ∉ taken) :
    Search taken name candidate next candidate
  /-- The candidate is taken, so the next number is tried. -/
  | retry {candidate given : String} {next : Nat} (used : candidate ∈ taken)
    (later : Search taken name (numbered name next) (next + 1) given) :
    Search taken name candidate next given

/-- A search passes over the numbers that are taken, up to the first one that is not. -/
private theorem search_numbered {taken : List String} {name : String} {k : Nat}
    (hk : numbered name k ∉ taken) (n : Nat)
    (hn : ∀ l < k, k ≤ l + n → numbered name l ∈ taken) (hle : n ≤ k) :
    Search taken name (numbered name (k - n)) (k - n + 1) (numbered name k) := by
  induction n with
  | zero => exact .done hk
  | succ n ih =>
    apply Search.retry
    · exact hn (k - (n + 1)) (by omega) (by omega)
    · have he : k - (n + 1) + 1 = k - n := by omega
      rw [he]
      exact ih (fun l hl hb ↦ hn l hl (by omega)) (by omega)

/-- The search that begins with the name itself, and goes on with two, ends with what the name
becomes. -/
private theorem FirstFree.search {taken : List String} {name given : String}
    (h : FirstFree taken name given) : Search taken name name 2 given := by
  by_cases hm : name ∈ taken
  · obtain ⟨k, ⟨⟨h2, hk⟩, hl⟩, -, rfl⟩ := h.numbered hm
    apply Search.retry hm
    have hs := search_numbered hk (k - 2) (fun l hlt hb ↦ by
      by_contra hn
      exact absurd (hl ⟨by omega, hn⟩) (by omega)) (by omega)
    rwa [Nat.sub_sub_self h2] at hs
  · rw [h.kept hm]
    exact .done hm

/-! ## Lists of names -/

private theorem not_mem_of_mem_uniqueAfter {taken names : List String} {given : String}
    (h : given ∈ uniqueAfter taken names) : given ∉ taken := by
  induction names generalizing taken with
  | nil => cases h
  | cons name names ih =>
    rcases List.mem_cons.mp h with rfl | h
    · exact fresh_not_mem taken name
    · exact fun hm ↦ ih h (.tail _ hm)

private theorem nodup_uniqueAfter (taken names : List String) :
    (uniqueAfter taken names).Nodup := by
  induction names generalizing taken with
  | nil => exact .nil
  | cons name names ih =>
    exact List.nodup_cons.mpr ⟨fun hm ↦ not_mem_of_mem_uniqueAfter hm (.head _), ih _⟩

private theorem madeFrom_uniqueAfter (taken names : List String) :
    List.Forall₂ MadeFrom names (uniqueAfter taken names) := by
  induction names generalizing taken with
  | nil => exact .nil
  | cons name names ih => exact .cons (firstFree_fresh taken name).madeFrom (ih _)

/-- The names are distinct. -/
theorem nodup_unique (names : List String) : (unique names).Nodup :=
  nodup_uniqueAfter [] names

/-- Each name becomes one that is made from it. -/
private theorem madeFrom_unique (names : List String) :
    List.Forall₂ MadeFrom names (unique names) :=
  madeFrom_uniqueAfter [] names

@[simp] theorem length_unique (names : List String) : (unique names).length = names.length :=
  (madeFrom_unique names).length_eq.symm

/-- Names that are made for items and kept distinct belong to the items. -/
theorem madeFrom_unique_map {α : Type} (name : α → String) (items : List α) :
    List.Forall₂ (fun item given ↦ MadeFrom (name item) given) items (unique (items.map name)) :=
  List.forall₂_map_left_iff.mp (madeFrom_unique _)

/-- What holds of all names and of what is made from them holds of the distinct names. -/
theorem forall_mem_unique {names : List String} {p : String → Prop}
    (h : ∀ name ∈ names, ∀ given, MadeFrom name given → p given) :
    ∀ given ∈ unique names, p given := by
  intro given hg
  obtain ⟨i, hi, rfl⟩ := List.getElem_of_mem hg
  have hn : i < names.length := by simpa using hi
  exact h _ (List.getElem_mem hn) _ ((madeFrom_unique names).get hn hi)

/-! ## Each name by those in front of it -/

/-- Only which names are taken matters, and how many they are. -/
private theorem FirstFree.of_perm {taken taken' : List String} {name given : String}
    (h : FirstFree taken name given) (hp : taken.Perm taken') : FirstFree taken' name given := by
  constructor
  · exact fun hm ↦ h.kept (mt hp.mem_iff.mp hm)
  · intro hm
    simpa only [hp.mem_iff, hp.length_eq] using h.numbered (hp.mem_iff.mpr hm)

/-- Each name becomes the first that is free of the ones taken before and of those in front of
it. -/
private theorem firstFree_uniqueAfter (taken names : List String) {i : Nat} {name : String}
    (h : names[i]? = some name) :
    ∃ given, (uniqueAfter taken names)[i]? = some given ∧
      FirstFree (((uniqueAfter taken names).take i).reverse ++ taken) name given := by
  induction names generalizing taken i with
  | nil => simp at h
  | cons first names ih =>
    cases i with
    | zero =>
      obtain rfl : first = name := by simpa using h
      exact ⟨_, rfl, firstFree_fresh taken first⟩
    | succ i =>
      obtain ⟨given, hg, hf⟩ := ih (fresh taken first :: taken) (by simpa using h)
      refine ⟨given, by simpa [uniqueAfter] using hg, ?_⟩
      simpa [uniqueAfter] using hf

private theorem uniqueAfter_eq_self {taken names : List String} (hn : names.Nodup)
    (hd : ∀ name ∈ names, name ∉ taken) : uniqueAfter taken names = names := by
  induction names generalizing taken with
  | nil => rfl
  | cons name names ih =>
    obtain ⟨hm, hn⟩ := List.nodup_cons.mp hn
    rw [uniqueAfter, (firstFree_fresh taken name).kept (hd name (.head _)), ih hn]
    intro other ho hc
    rcases List.mem_cons.mp hc with rfl | hc
    · exact hm ho
    · exact hd other (.tail _ ho) hc

/-- Distinct names are left as they are. -/
private theorem unique_eq_self {names : List String} (h : names.Nodup) : unique names = names :=
  uniqueAfter_eq_self h fun _ _ ↦ List.not_mem_nil

/-- Names are made distinct one by one. For each of them the search behind the names that are given
already ends: it keeps the name if that is free, and otherwise it finds the least number from two on
with which it is. Names that are distinct are left as they are. -/
theorem unique_search (names : List String) :
    (unique names).length = names.length ∧ (unique names).Nodup ∧
      (∀ i name, names[i]? = some name → ∃ given, (unique names)[i]? = some given ∧
        Search ((unique names).take i) name name 2 given ∧
        FirstFree ((unique names).take i) name given) ∧
      (names.Nodup → unique names = names) ∧ unique (unique names) = unique names := by
  refine ⟨length_unique names, nodup_unique names, ?_, unique_eq_self,
    unique_eq_self (nodup_unique names)⟩
  intro i name hn
  obtain ⟨given, hg, hf⟩ := firstFree_uniqueAfter [] names hn
  rw [List.append_nil] at hf
  have hf := hf.of_perm (List.reverse_perm _)
  exact ⟨given, hg, hf.search, hf⟩

/-- A name that looks like one with a number behind it is passed over by those that come later. -/
theorem unique_search_suffixed :
    ["A_2", "A", "A"][2]? = some "A" ∧
      ∃ given, (unique ["A_2", "A", "A"])[2]? = some given ∧
        Search ["A_2", "A"] "A" "A" 2 given ∧ FirstFree ["A_2", "A"] "A" given ∧
        unique ["A_2", "A"] = ["A_2", "A"] := by
  obtain ⟨given, hg, hs, hf⟩ := (unique_search ["A_2", "A", "A"]).2.2.1 2 "A" rfl
  have hu := (unique_search ["A_2", "A"]).2.2.2.1 (by decide)
  exact ⟨rfl, given, hg, hs, hf, hu⟩

example : unique ["A", "A_2", "A", "A", "A_2"] = ["A", "A_2", "A_3", "A_4", "A_2_2"] := by
  decide

end Naming

end RpcForge

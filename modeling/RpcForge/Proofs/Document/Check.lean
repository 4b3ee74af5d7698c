import RpcForge.Document.Error
import RpcForge.Proofs.Except

/-!
# Checks that pass

Checks that are made one after another pass exactly if every single one does. What a check is put
under names the place of its error only.
-/

namespace RpcForge.Check

variable {α : Type}

@[simp] theorem pass_eq_ok : pass = .ok () :=
  rfl

@[simp] theorem broken_ne_ok (message : String) : broken message ≠ .ok () := by
  simp [broken]

/-- A check either passes or refuses. -/
theorem exists_eq_error_iff {c : Check} : (∃ e, c = .error e) ↔ c ≠ .ok () := by
  cases c with
  | error e => simp
  | ok _ => simp

/-- A check that refuses under a condition passes where the condition does not hold. -/
@[simp] theorem ite_eq_ok_iff {p : Prop} [Decidable p] {refusal c : Check}
    (hr : refusal ≠ .ok ()) : (if p then refusal else c) = .ok () ↔ ¬p ∧ c = .ok () := by
  by_cases h : p
  · simp [h, hr]
  · simp [h]

@[simp] theorem first_nil_eq_ok : first [] = .ok () :=
  rfl

@[simp] theorem first_cons_eq_ok_iff (c : Check) (checks : List Check) :
    first (c :: checks) = .ok () ↔ c = .ok () ∧ first checks = .ok () := by
  cases c with
  | ok _ =>
    rw [first]
    simp
  | error e =>
    rw [first]
    simp

/-- All of several checks pass. -/
theorem first_eq_ok_iff (checks : List Check) :
    first checks = .ok () ↔ ∀ c ∈ checks, c = .ok () := by
  induction checks with
  | nil => simp
  | cons c checks ih => rw [first_cons_eq_ok_iff, ih, List.forall_mem_cons]

/-- Checks that come after one are made if it passes. -/
private theorem first_cons (c : Check) (checks : List Check) :
    first (c :: checks) = c >>= fun _ ↦ first checks := by
  cases c with
  | ok _ => rfl
  | error e => rfl

theorem first_singleton (c : Check) : first [c] = c := by
  rw [first_cons, show first [] = pure () from rfl, bind_pure_unit]

private theorem first_append (checks rest : List Check) :
    first (checks ++ rest) = first checks >>= fun _ ↦ first rest := by
  induction checks with
  | nil => rfl
  | cons c checks ih => rw [List.cons_append, first_cons, ih, first_cons, bind_assoc]

/-- Checks whose last one is made of some more are made one after another with them. -/
theorem first_append_first (checks rest : List Check) :
    first (checks ++ [first rest]) = first (checks ++ rest) := by
  rw [first_append, first_singleton, first_append]

/-- Groups of checks that are made one after another are made as one group. -/
theorem first_map_first (groups : List (List Check)) :
    first (groups.map first) = first groups.flatten := by
  induction groups with
  | nil => rfl
  | cons group groups ih => rw [List.map_cons, first_cons, ih, List.flatten_cons, first_append]

/-- The error of several checks is that of the first one that fails. -/
theorem first_eq_error_iff (checks : List Check) (e : DocumentError) :
    first checks = .error e ↔
      ∃ before after : List Check, checks = before ++ .error e :: after ∧
        ∀ c ∈ before, c = .ok () := by
  constructor
  · intro h
    induction checks with
    | nil => cases h
    | cons c checks ih =>
      cases c with
      | ok _ =>
        obtain ⟨before, after, rfl, hb⟩ := ih h
        exact ⟨.ok () :: before, after, rfl, List.forall_mem_cons.mpr ⟨rfl, hb⟩⟩
      | error e' =>
        cases h
        exact ⟨[], checks, rfl, List.forall_mem_nil _⟩
  · rintro ⟨before, after, rfl, hb⟩
    rw [first_append, (first_eq_ok_iff before).mpr hb]
    rfl

@[simp] theorem under_eq_ok_iff (parent : String) (c : Check) :
    c.under parent = .ok () ↔ c = .ok () :=
  mapError_eq_ok_iff

@[simp] theorem all_eq_ok_iff (check : α → Check) (things : List α) :
    all check things = .ok () ↔ ∀ a ∈ things, check a = .ok () := by
  rw [all, first_eq_ok_iff, List.forall_mem_map]

/-- The error of a check of several things is that of the first one that fails. -/
theorem all_eq_error_iff (check : α → Check) (things : List α) (e : DocumentError) :
    all check things = .error e ↔ ∃ before a after, things = before ++ a :: after ∧
      (∀ b ∈ before, check b = .ok ()) ∧ check a = .error e := by
  rw [all, first_eq_error_iff]
  constructor
  · rintro ⟨checks, rest, h, hb⟩
    obtain ⟨before, others, rfl, rfl, hr⟩ := List.map_eq_append_iff.mp h
    obtain ⟨a, after, rfl, ha, -⟩ := List.map_eq_cons_iff.mp hr
    exact ⟨before, a, after, rfl, List.forall_mem_map.mp hb, ha⟩
  · rintro ⟨before, a, after, rfl, hb, ha⟩
    exact ⟨before.map check, after.map check, by rw [List.map_append, List.map_cons, ha],
      List.forall_mem_map.mpr hb⟩

@[simp] theorem indexed_eq_ok_iff (keyword : String) (check : α → Check) (things : List α) :
    indexed keyword check things = .ok () ↔ ∀ a ∈ things, check a = .ok () := by
  simp only [indexed, first_eq_ok_iff, List.mem_mapIdx]
  constructor
  · intro h a ha
    obtain ⟨i, hi, rfl⟩ := List.getElem_of_mem ha
    exact (under_eq_ok_iff _ _).mp (h _ ⟨i, hi, rfl⟩)
  · rintro h _ ⟨i, hi, rfl⟩
    exact (under_eq_ok_iff _ _).mpr (h _ (List.getElem_mem hi))

@[simp] theorem optional_eq_ok_iff (check : α → Check) (thing : Option α) :
    optional check thing = .ok () ↔ ∀ a ∈ thing, check a = .ok () := by
  cases thing with
  | none => simp [optional]
  | some a => simp [optional]

end RpcForge.Check

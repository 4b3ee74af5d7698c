import Mathlib.Data.List.Forall2

/-!
# Computations that can fail

When steps after one another, and a step for each element of a list, succeed or fail. A list fails
with the error of the first element that fails.
-/

namespace RpcForge

variable {ε ε' α β : Type}

/-- What has no error has a result. -/
theorem exists_eq_ok_iff {x : Except ε α} : (∃ a, x = .ok a) ↔ ∀ e, x ≠ .error e := by
  cases x with
  | error e => simp
  | ok a => simp

/-- Two steps succeed if the first does and the second does from there. -/
theorem bind_eq_ok_iff {x : Except ε α} {f : α → Except ε β} {b : β} :
    x >>= f = .ok b ↔ ∃ a, x = .ok a ∧ f a = .ok b := by
  cases x with
  | error e => simp [bind, Except.bind]
  | ok a => simp [bind, Except.bind]

/-- Two steps fail if the first does, or if the second does from where the first leads. -/
theorem bind_eq_error_iff {x : Except ε α} {f : α → Except ε β} {e : ε} :
    x >>= f = .error e ↔ x = .error e ∨ ∃ a, x = .ok a ∧ f a = .error e := by
  cases x with
  | error e => simp [bind, Except.bind]
  | ok a => simp [bind, Except.bind]

/-- Renaming the error does not touch success. -/
theorem mapError_eq_ok_iff {x : Except ε α} {f : ε → ε'} {a : α} :
    x.mapError f = .ok a ↔ x = .ok a := by
  cases x with
  | error e => simp [Except.mapError]
  | ok a => simp [Except.mapError]

/-- A renamed error comes from an error. -/
theorem mapError_eq_error_iff {x : Except ε α} {f : ε → ε'} {e' : ε'} :
    x.mapError f = .error e' ↔ ∃ e, x = .error e ∧ f e = e' := by
  cases x with
  | error e => simp [Except.mapError]
  | ok a => simp [Except.mapError]

/-- A changed result comes from a result. -/
theorem map_eq_ok_iff {x : Except ε α} {f : α → β} {b : β} :
    x.map f = .ok b ↔ ∃ a, x = .ok a ∧ f a = b := by
  cases x with
  | error e => simp [Except.map]
  | ok a => simp [Except.map]

/-- Changing the result does not touch failure. -/
theorem map_eq_error_iff {x : Except ε α} {f : α → β} {e : ε} :
    x.map f = .error e ↔ x = .error e := by
  cases x with
  | error e => simp [Except.map]
  | ok a => simp [Except.map]

/-- What is known of the result of a computation holds of a result that there is. -/
theorem exists_ok_of_map_toOption {x : Except ε α} {f : α → β} {b : β}
    (h : x.toOption.map f = some b) : ∃ a, x = .ok a ∧ f a = b := by
  cases x with
  | error e => cases h
  | ok a => exact ⟨a, rfl, Option.some.inj h⟩

/-- A list succeeds element by element. -/
theorem mapM_eq_ok_iff {f : α → Except ε β} {as : List α} {bs : List β} :
    as.mapM f = .ok bs ↔ List.Forall₂ (fun a b ↦ f a = .ok b) as bs := by
  induction as generalizing bs with
  | nil => simp [pure, Except.pure, eq_comm]
  | cons a as ih =>
    rw [List.mapM_cons, List.forall₂_cons_left_iff, bind_eq_ok_iff]
    constructor
    · rintro ⟨b, hb, hr⟩
      obtain ⟨rest, hm, hp⟩ := bind_eq_ok_iff.mp hr
      exact ⟨b, rest, hb, ih.mp hm, (Except.ok.inj hp).symm⟩
    · rintro ⟨b, rest, hb, hm, rfl⟩
      exact ⟨b, hb, bind_eq_ok_iff.mpr ⟨rest, ih.mpr hm, rfl⟩⟩

/-- A list succeeds if every element does. -/
theorem exists_mapM_eq_ok_iff {f : α → Except ε β} {as : List α} :
    (∃ bs, as.mapM f = .ok bs) ↔ ∀ a ∈ as, ∃ b, f a = .ok b := by
  induction as with
  | nil => simp [pure, Except.pure]
  | cons a as ih =>
    simp only [mapM_eq_ok_iff, List.forall₂_cons_left_iff] at ih ⊢
    rw [List.forall_mem_cons, ← ih]
    constructor
    · rintro ⟨_, b, rest, hb, hr, rfl⟩
      exact ⟨⟨b, hb⟩, rest, hr⟩
    · rintro ⟨⟨b, hb⟩, rest, hr⟩
      exact ⟨b :: rest, b, rest, hb, hr, rfl⟩

/-- A list fails with the error of the first element that fails. -/
theorem mapM_eq_error_iff {f : α → Except ε β} {as : List α} {e : ε} :
    as.mapM f = .error e ↔ ∃ before a after, as = before ++ a :: after ∧
      (∀ x ∈ before, ∃ b, f x = .ok b) ∧ f a = .error e := by
  induction as with
  | nil => simp [pure, Except.pure]
  | cons x as ih =>
    rw [List.mapM_cons, bind_eq_error_iff]
    constructor
    · rintro (hx | ⟨b, hb, hr⟩)
      · exact ⟨[], x, as, rfl, by simp, hx⟩
      · rcases bind_eq_error_iff.mp hr with hr | ⟨rest, _, hp⟩
        · obtain ⟨before, a, after, rfl, hs, ha⟩ := ih.mp hr
          exact ⟨x :: before, a, after, rfl, List.forall_mem_cons.mpr ⟨⟨b, hb⟩, hs⟩, ha⟩
        · cases hp
    · rintro ⟨_ | ⟨y, before⟩, a, after, he, hs, ha⟩
      · obtain ⟨rfl, rfl⟩ := List.cons.inj he
        exact .inl ha
      · obtain ⟨rfl, rfl⟩ := List.cons.inj he
        obtain ⟨⟨b, hb⟩, hs⟩ := List.forall_mem_cons.mp hs
        exact .inr ⟨b, hb, bind_eq_error_iff.mpr (.inl (ih.mpr ⟨before, a, after, rfl, hs, ha⟩))⟩

/-- A check of every element succeeds if every single check does. -/
theorem forM_eq_ok_iff {f : α → Except ε Unit} {as : List α} :
    as.forM f = .ok () ↔ ∀ a ∈ as, f a = .ok () := by
  induction as with
  | nil => simp [pure, Except.pure]
  | cons a as ih =>
    have hstep : (a :: as).forM f = (f a >>= fun _ ↦ as.forM f) := rfl
    rw [hstep, bind_eq_ok_iff, List.forall_mem_cons, ih]
    constructor
    · rintro ⟨⟨⟩, ha, hr⟩
      exact ⟨ha, hr⟩
    · rintro ⟨ha, hr⟩
      exact ⟨(), ha, hr⟩

/-- A check of every element fails with the error of the first element that fails. -/
theorem forM_eq_error_iff {f : α → Except ε Unit} {as : List α} {e : ε} :
    as.forM f = .error e ↔ ∃ before a after, as = before ++ a :: after ∧
      (∀ x ∈ before, f x = .ok ()) ∧ f a = .error e := by
  induction as with
  | nil => simp [pure, Except.pure]
  | cons x as ih =>
    have hstep : (x :: as).forM f = (f x >>= fun _ ↦ as.forM f) := rfl
    rw [hstep, bind_eq_error_iff]
    constructor
    · rintro (hx | ⟨⟨⟩, hx, hr⟩)
      · exact ⟨[], x, as, rfl, by simp, hx⟩
      · obtain ⟨before, a, after, rfl, hs, ha⟩ := ih.mp hr
        exact ⟨x :: before, a, after, rfl, List.forall_mem_cons.mpr ⟨hx, hs⟩, ha⟩
    · rintro ⟨_ | ⟨y, before⟩, a, after, he, hs, ha⟩
      · obtain ⟨rfl, rfl⟩ := List.cons.inj he
        exact .inl ha
      · obtain ⟨rfl, rfl⟩ := List.cons.inj he
        obtain ⟨hx, hs⟩ := List.forall_mem_cons.mp hs
        exact .inr ⟨(), hx, ih.mpr ⟨before, a, after, rfl, hs, ha⟩⟩

end RpcForge

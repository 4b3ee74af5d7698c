import RpcForge.Json.Reader
import RpcForge.Proofs.Except
import RpcForge.Proofs.Entries
import RpcForge.Proofs.Json.Shape
import RpcForge.Proofs.Json.Spelling

/-!
# What a reader reads

A reader that succeeds has read the tokens of a value. On the tokens of a value whose objects repeat
no key it succeeds exactly if the value is not nested too deeply and has the shape that is asked
for, and then it gives the value back.
-/

namespace RpcForge.Json

open Value

namespace Reader

variable {ρ : Type} {g : Grammar ρ}

/-! ## Single steps -/

theorem lift_eq_ok_iff {α : Type} {x : Except SyntaxError α} {a : α} :
    lift x = .ok a ↔ x = .ok a := by
  cases x with
  | error e => simp [lift]
  | ok b => simp [lift]

theorem judged_eq_ok_iff {fault : Option ShapeError} {v w : Value} {rest rest' : List Token} :
    judged fault v rest = .ok (w, rest') ↔ (w = v ∧ rest' = rest) ∧ fault = none := by
  cases fault with
  | none => simp [judged, eq_comm]
  | some e => simp [judged]

/-- An array ends with its closing bracket. -/
private theorem nextItem_eq_close {first : Bool} {tokens rest : List Token}
    (h : nextItem first tokens = .ok (.close rest)) : tokens = .closeArray :: rest := by
  unfold nextItem at h
  split at h
  · cases h
  · cases h; rfl
  · split at h
    · cases h
    · split at h <;> cases h

/-- An item stands behind a comma unless it is the first one. -/
private theorem nextItem_eq_element {first : Bool} {tokens rest : List Token}
    (h : nextItem first tokens = .ok (.element () rest)) :
    tokens = separator first ++ rest := by
  unfold nextItem at h
  split at h
  · cases h
  · cases h
  · split at h
    · next hf => cases h; rw [hf]; rfl
    · next hf =>
      rw [Bool.not_eq_true] at hf
      split at h <;> cases h
      rw [hf]; rfl

private theorem keyAt_eq_element {tokens rest : List Token} {key : String}
    (h : keyAt tokens = .ok (.element key rest)) : tokens = .string key :: rest := by
  unfold keyAt at h
  split at h <;> cases h
  rfl

private theorem keyAt_ne_close {tokens rest : List Token} : keyAt tokens ≠ .ok (.close rest) := by
  intro h
  unfold keyAt at h
  split at h <;> cases h

/-- An object ends with its closing brace. -/
private theorem nextKey_eq_close {first : Bool} {tokens rest : List Token}
    (h : nextKey first tokens = .ok (.close rest)) : tokens = .closeObject :: rest := by
  unfold nextKey at h
  split at h
  · cases h
  · cases h; rfl
  · split at h
    · exact absurd h keyAt_ne_close
    · split at h
      · cases h
      · cases h
      · exact absurd h keyAt_ne_close
      · cases h

/-- A key stands behind a comma unless it is the first one. -/
private theorem nextKey_eq_element {first : Bool} {tokens rest : List Token} {key : String}
    (h : nextKey first tokens = .ok (.element key rest)) :
    tokens = separator first ++ .string key :: rest := by
  unfold nextKey at h
  split at h
  · cases h
  · cases h
  · split at h
    · next hf => rw [hf, keyAt_eq_element h]; rfl
    · next hf =>
      rw [Bool.not_eq_true] at hf
      split at h
      · cases h
      · cases h
      · rw [hf, keyAt_eq_element h]; rfl
      · cases h

private theorem afterColon_eq_ok {tokens rest : List Token} (h : afterColon tokens = .ok rest) :
    tokens = .colon :: rest := by
  unfold afterColon at h
  split at h <;> cases h
  rfl

/-! ## What has been read are the tokens of a value -/

/-- Whatever is read with some fuel, the tokens behind it and tokens that spell a value in front of
them are the tokens that were there. Repeated keys are why the value may be another one than was
read. -/
structure SpelledAt (g : Grammar ρ) (fuel : Nat) : Prop where
  /-- One value. -/
  value : ∀ {depth shape nullable tokens v rest},
    value g fuel depth shape nullable tokens = .ok (v, rest) →
      ∃ w : Value, tokens = w.tokens ++ rest
  /-- An array behind its bracket. -/
  array : ∀ {depth item tokens v rest}, array g fuel depth item tokens = .ok (v, rest) →
    ∃ ws, tokens = itemTokens true ws ++ rest
  /-- An object behind its brace. -/
  object : ∀ {depth shape tokens v rest}, object g fuel depth shape tokens = .ok (v, rest) →
    ∃ ms, tokens = memberTokens true ms ++ rest
  /-- The rest of the items of an array. -/
  items : ∀ {depth item first tokens vs rest},
    items g fuel depth item first tokens = .ok (vs, rest) →
      ∃ ws, tokens = itemTokens first ws ++ rest
  /-- The rest of the members of an object. -/
  members : ∀ {depth shape done tokens ms rest},
    members g fuel depth shape done tokens = .ok (ms, rest) →
      ∃ ms', tokens = memberTokens done.isEmpty ms' ++ rest

private theorem spelledAt_zero (g : Grammar ρ) : SpelledAt g 0 where
  value h := by simp [value] at h
  array h := by simp [array] at h
  object h := by simp [object] at h
  items h := by simp [items] at h
  members h := by simp [members] at h

private theorem isEmpty_insert {α : Type} (entries : Entries α) (key : String) (a : α) :
    (Entries.insert entries key a).isEmpty = false := by
  cases entries with
  | nil => rfl
  | cons entry rest =>
    rw [Entries.insert]
    split
    · rfl
    · rfl

namespace SpelledAt

variable {fuel depth : Nat} {tokens rest : List Token}

/-- An array that was read as a part is judged as a whole, but its tokens stay the same. -/
private theorem judged_array (h : SpelledAt g fuel) {fault : Value → Option ShapeError}
    {item : Shape ρ} {v : Value}
    (hr : (do let (v, rest) ← Reader.array g fuel depth item tokens; judged (fault v) v rest) =
      .ok (v, rest)) : ∃ ws, tokens = itemTokens true ws ++ rest := by
  obtain ⟨⟨w, rest'⟩, ha, hj⟩ := bind_eq_ok_iff.mp hr
  obtain ⟨⟨rfl, rfl⟩, _⟩ := judged_eq_ok_iff.mp hj
  exact h.array ha

/-- An object that was read as a part is judged as a whole, but its tokens stay the same. -/
private theorem judged_object (h : SpelledAt g fuel) {fault : Value → Option ShapeError}
    {shape : ObjectShape ρ} {v : Value}
    (hr : (do let (v, rest) ← Reader.object g fuel depth shape tokens; judged (fault v) v rest) =
      .ok (v, rest)) : ∃ ms, tokens = memberTokens true ms ++ rest := by
  obtain ⟨⟨w, rest'⟩, ha, hj⟩ := bind_eq_ok_iff.mp hr
  obtain ⟨⟨rfl, rfl⟩, _⟩ := judged_eq_ok_iff.mp hj
  exact h.object ha

private theorem value_succ (h : SpelledAt g fuel) {shape : Shape ρ} {nullable : Bool} {v : Value}
    (hr : Reader.value g (fuel + 1) depth shape nullable tokens = .ok (v, rest)) :
    ∃ w : Value, tokens = w.tokens ++ rest := by
  rw [Reader.value.eq_def] at hr
  dsimp only at hr
  -- The first token tells what is read; the shape only decides how an array or an object is.
  split at hr
  · cases hr
  · obtain ⟨⟨rfl, rfl⟩, _⟩ := judged_eq_ok_iff.mp hr
    exact ⟨.null, rfl⟩
  · next b _ =>
    obtain ⟨⟨rfl, rfl⟩, _⟩ := judged_eq_ok_iff.mp hr
    exact ⟨.bool b, rfl⟩
  · next n _ =>
    obtain ⟨⟨rfl, rfl⟩, _⟩ := judged_eq_ok_iff.mp hr
    exact ⟨.number n, rfl⟩
  · next s _ =>
    obtain ⟨⟨rfl, rfl⟩, _⟩ := judged_eq_ok_iff.mp hr
    exact ⟨.string s, rfl⟩
  · cases hr
  · cases hr
  · next tail =>
    have hs : ∃ ws, tail = itemTokens true ws ++ rest := by
      split at hr
      · exact h.array hr
      · exact h.array hr
      · exact h.judged_array hr
      · cases hr
    obtain ⟨ws, rfl⟩ := hs
    exact ⟨.array ws, rfl⟩
  · next tail =>
    have hs : ∃ ms, tail = memberTokens true ms ++ rest := by
      split at hr
      · exact h.object hr
      · exact h.object hr
      · exact h.object hr
      · exact h.judged_object hr
      · cases hr
    obtain ⟨ms, rfl⟩ := hs
    exact ⟨.object ms, rfl⟩
  · cases hr

private theorem array_succ (h : SpelledAt g fuel) {item : Shape ρ} {v : Value}
    (hr : Reader.array g (fuel + 1) depth item tokens = .ok (v, rest)) :
    ∃ ws, tokens = itemTokens true ws ++ rest := by
  rw [Reader.array.eq_def] at hr
  split at hr
  · next he => cases he
  · cases hr
  · next he =>
    cases he
    obtain ⟨⟨vs, rest'⟩, hi, he⟩ := bind_eq_ok_iff.mp hr
    cases he
    exact h.items hi

private theorem object_succ (h : SpelledAt g fuel) {shape : ObjectShape ρ} {v : Value}
    (hr : Reader.object g (fuel + 1) depth shape tokens = .ok (v, rest)) :
    ∃ ms, tokens = memberTokens true ms ++ rest := by
  rw [Reader.object.eq_def] at hr
  split at hr
  · next he => cases he
  · cases hr
  · next he =>
    cases he
    obtain ⟨⟨ms, rest'⟩, hm, he⟩ := bind_eq_ok_iff.mp hr
    cases he
    exact h.members hm

private theorem items_succ (h : SpelledAt g fuel) {item : Shape ρ} {first : Bool}
    {vs : List Value} (hr : Reader.items g (fuel + 1) depth item first tokens = .ok (vs, rest)) :
    ∃ ws, tokens = itemTokens first ws ++ rest := by
  rw [Reader.items] at hr
  obtain ⟨next, hn, hr⟩ := bind_eq_ok_iff.mp hr
  rw [lift_eq_ok_iff] at hn
  cases next with
  | close rest' =>
    cases hr
    exact ⟨[], nextItem_eq_close hn⟩
  | element _ inner =>
    obtain ⟨⟨v, rest₁⟩, hv, hr₁⟩ := bind_eq_ok_iff.mp hr
    obtain ⟨⟨vs', rest₂⟩, hi, he⟩ := bind_eq_ok_iff.mp hr₁
    cases he
    obtain ⟨w, rfl⟩ := h.value hv
    obtain ⟨ws, rfl⟩ := h.items hi
    refine ⟨w :: ws, ?_⟩
    rw [nextItem_eq_element hn, itemTokens, List.append_assoc, List.append_assoc]

private theorem members_succ (h : SpelledAt g fuel) {shape : ObjectShape ρ}
    {done ms : Entries Value}
    (hr : Reader.members g (fuel + 1) depth shape done tokens = .ok (ms, rest)) :
    ∃ ms', tokens = memberTokens done.isEmpty ms' ++ rest := by
  rw [Reader.members] at hr
  obtain ⟨next, hn, hr⟩ := bind_eq_ok_iff.mp hr
  rw [lift_eq_ok_iff] at hn
  cases next with
  | close rest' =>
    dsimp only at hr
    split at hr
    · cases hr
    · cases hr
      exact ⟨[], nextKey_eq_close hn⟩
  | element key inner =>
    dsimp only at hr
    split at hr
    · cases hr
    · obtain ⟨rest₁, hc, hr₁⟩ := bind_eq_ok_iff.mp hr
      obtain ⟨⟨v, rest₂⟩, hv, hm⟩ := bind_eq_ok_iff.mp hr₁
      rw [lift_eq_ok_iff] at hc
      obtain ⟨w, hw⟩ := h.value hv
      obtain ⟨ms', hm'⟩ := h.members hm
      simp only [isEmpty_insert] at hm'
      refine ⟨(key, w) :: ms', ?_⟩
      rw [nextKey_eq_element hn, afterColon_eq_ok hc, hw, hm', memberTokens]
      simp only [List.append_assoc, List.cons_append]

end SpelledAt

/-- With any fuel, what has been read are the tokens of a value. -/
private theorem spelledAt (g : Grammar ρ) (fuel : Nat) : SpelledAt g fuel := by
  induction fuel with
  | zero => exact spelledAt_zero g
  | succ fuel ih =>
    exact ⟨ih.value_succ, ih.array_succ, ih.object_succ, ih.items_succ, ih.members_succ⟩

/-! ## The tokens of a value are read back -/

/-- The first fault of the members of an object that is being read, after the keys `seen` so far. -/
def ObjectShape.error? (g : Grammar ρ) (shape : ObjectShape ρ) (seen : List String)
    (members : Entries Value) : Option ShapeError :=
  match shape with
  | .map value => g.memberError? value members
  | .record name => g.fieldError? name seen members

namespace ObjectShape

private theorem error?_nil (shape : ObjectShape ρ) (seen : List String) :
    shape.error? g seen [] = shape.missing? g seen := by
  cases shape <;> rfl

/-- Member after member is looked at in its place. -/
private theorem error?_cons (shape : ObjectShape ρ) (seen : List String) (key : String) (v : Value)
    (rest : Entries Value) :
    shape.error? g seen ((key, v) :: rest) =
      match shape.slot g seen key with
      | .error e => some e
      | .ok (inner, nullable) =>
        (g.faultIn? inner nullable v).or (shape.error? g (seen ++ [key]) rest) := by
  cases shape with
  | map value => rfl
  | record name =>
    have hk : ∀ other, other ∈ key :: seen ↔ other ∈ seen ++ [key] := by
      intro other
      rw [List.mem_cons, List.mem_append, List.mem_singleton, or_comm]
    have hc := g.fieldError?_congr name hk rest
    rw [error?, Grammar.fieldError?_cons, hc]
    rfl

private theorem error?_map_any (seen : List String) (members : Entries Value) :
    (ObjectShape.map Shape.any).error? g seen members = none :=
  (Grammar.memberError?_eq_none_iff _ _).mpr fun member _ ↦ Grammar.error?_any member.2

end ObjectShape

private theorem nextItem_element (first : Bool) (v : Value) (rest : List Token) :
    nextItem first (separator first ++ (v.tokens ++ rest)) =
      .ok (.element () (v.tokens ++ rest)) := by
  obtain ⟨token, tokens, he, hne, _, _⟩ := exists_tokens_eq_cons v
  rw [he]
  cases first with
  | true =>
    change nextItem true (token :: (tokens ++ rest)) = _
    cases token with
    | closeArray => exact absurd rfl hne
    | _ => rfl
  | false =>
    change nextItem false (.comma :: token :: (tokens ++ rest)) = _
    cases token with
    | closeArray => exact absurd rfl hne
    | _ => rfl

private theorem nextKey_element (first : Bool) (key : String) (rest : List Token) :
    nextKey first (separator first ++ .string key :: rest) = .ok (.element key rest) := by
  cases first <;> rfl

/-- An array can be read if its items can, one level further down. -/
private theorem array_iff {fuel : Nat} {item : Shape ρ} {vs : List Value} {rest rest' : List Token}
    {w : Value} (hi : ∀ {depth ws}, items g fuel depth item true (itemTokens true vs ++ rest) =
        .ok (ws, rest') ↔
      (ws = vs ∧ rest' = rest) ∧ itemNesting vs ≤ depth ∧ g.itemError? item vs = none)
    (depth : Nat) :
    array g (fuel + 1) depth item (itemTokens true vs ++ rest) = .ok (w, rest') ↔
      (w = .array vs ∧ rest' = rest) ∧ itemNesting vs + 1 ≤ depth ∧
        g.itemError? item vs = none := by
  cases depth with
  | zero => simp [array]
  | succ depth =>
    rw [array, bind_eq_ok_iff, Nat.add_le_add_iff_right]
    constructor
    · rintro ⟨⟨ws, rest₁⟩, hr, he⟩
      cases he
      obtain ⟨⟨rfl, rfl⟩, hd, hf⟩ := hi.mp hr
      exact ⟨⟨rfl, rfl⟩, hd, hf⟩
    · rintro ⟨⟨rfl, rfl⟩, hd, hf⟩
      exact ⟨_, hi.mpr ⟨⟨rfl, rfl⟩, hd, hf⟩, rfl⟩

/-- An object can be read if its members can, one level further down. -/
private theorem object_iff {fuel : Nat} {shape : ObjectShape ρ} {ms : Entries Value}
    {rest rest' : List Token} {w : Value}
    (hm : ∀ {depth ms'}, members g fuel depth shape [] (memberTokens true ms ++ rest) =
        .ok (ms', rest') ↔
      (ms' = ms ∧ rest' = rest) ∧ memberNesting ms ≤ depth ∧ shape.error? g [] ms = none)
    (depth : Nat) :
    object g (fuel + 1) depth shape (memberTokens true ms ++ rest) = .ok (w, rest') ↔
      (w = .object ms ∧ rest' = rest) ∧ memberNesting ms + 1 ≤ depth ∧
        shape.error? g [] ms = none := by
  cases depth with
  | zero => simp [object]
  | succ depth =>
    rw [object, bind_eq_ok_iff, Nat.add_le_add_iff_right]
    constructor
    · rintro ⟨⟨ms', rest₁⟩, hr, he⟩
      cases he
      obtain ⟨⟨rfl, rfl⟩, hd, hf⟩ := hm.mp hr
      exact ⟨⟨rfl, rfl⟩, hd, hf⟩
    · rintro ⟨⟨rfl, rfl⟩, hd, hf⟩
      exact ⟨_, hm.mpr ⟨⟨rfl, rfl⟩, hd, hf⟩, rfl⟩

/-- What is read as a plain value first and judged afterwards is read if it can be and has no
fault. -/
private theorem bind_judged_iff {x : Except ReadError (Value × List Token)} {v w : Value}
    {rest rest' : List Token} {n depth : Nat} {fault : Value → Option ShapeError}
    (hx : ∀ {w rest'}, x = .ok (w, rest') ↔ (w = v ∧ rest' = rest) ∧ n ≤ depth) :
    (do let (v, rest) ← x; judged (fault v) v rest) = .ok (w, rest') ↔
      (w = v ∧ rest' = rest) ∧ n ≤ depth ∧ fault v = none := by
  rw [bind_eq_ok_iff]
  constructor
  · rintro ⟨⟨v', rest₁⟩, hr, hj⟩
    obtain ⟨⟨rfl, rfl⟩, hd⟩ := hx.mp hr
    obtain ⟨he, hf⟩ := judged_eq_ok_iff.mp hj
    exact ⟨he, hd, hf⟩
  · rintro ⟨he, hd, hf⟩
    exact ⟨(v, rest), hx.mpr ⟨⟨rfl, rfl⟩, hd⟩, judged_eq_ok_iff.mpr ⟨he, hf⟩⟩

/-- The tokens of an array are read if the array can be and has no fault. -/
private theorem value_array_iff {fuel depth : Nat} {shape : Shape ρ} {nullable : Bool}
    {vs : List Value} {rest rest' : List Token} {w : Value}
    (ha : ∀ {item : Shape ρ} {w rest'}, array g fuel depth item (itemTokens true vs ++ rest) =
        .ok (w, rest') ↔
      (w = .array vs ∧ rest' = rest) ∧ itemNesting vs + 1 ≤ depth ∧ g.itemError? item vs = none) :
    value g (fuel + 1) depth shape nullable (.openArray :: (itemTokens true vs ++ rest)) =
        .ok (w, rest') ↔
      (w = .array vs ∧ rest' = rest) ∧ itemNesting vs + 1 ≤ depth ∧
        g.faultIn? shape nullable (.array vs) = none := by
  have any_ok : g.itemError? .any vs = none :=
    (Grammar.itemError?_eq_none_iff _ _).mpr fun v _ ↦ Grammar.error?_any v
  rw [Grammar.faultIn?_of_not_isNull rfl]
  cases shape with
  | any =>
    have h : array g fuel depth .any (itemTokens true vs ++ rest) = .ok (w, rest') ↔ _ := ha
    rw [any_ok] at h
    rw [Grammar.error?_any]
    exact h
  | list item => exact ha
  | whole name =>
    refine bind_judged_iff fun {w rest'} ↦ ?_
    rw [ha, any_ok]
    simp
  | text => simp [value, Grammar.error?, Grammar.settle]
  | flag => simp [value, Grammar.error?, Grammar.settle]
  | map item => simp [value, Grammar.error?, Grammar.settle]
  | record name => simp [value, Grammar.error?, Grammar.settle]

/-- The tokens of an object are read if the object can be and has no fault. -/
private theorem value_object_iff {fuel depth : Nat} {shape : Shape ρ} {nullable : Bool}
    {ms : Entries Value} {rest rest' : List Token} {w : Value}
    (ho : ∀ {inner : ObjectShape ρ} {w rest'},
      object g fuel depth inner (memberTokens true ms ++ rest) = .ok (w, rest') ↔
        (w = .object ms ∧ rest' = rest) ∧ memberNesting ms + 1 ≤ depth ∧
          inner.error? g [] ms = none) :
    value g (fuel + 1) depth shape nullable (.openObject :: (memberTokens true ms ++ rest)) =
        .ok (w, rest') ↔
      (w = .object ms ∧ rest' = rest) ∧ memberNesting ms + 1 ≤ depth ∧
        g.faultIn? shape nullable (.object ms) = none := by
  rw [Grammar.faultIn?_of_not_isNull rfl]
  cases shape with
  | any =>
    have h : object g fuel depth (.map .any) (memberTokens true ms ++ rest) = .ok (w, rest') ↔ _ :=
      ho
    rw [ObjectShape.error?_map_any] at h
    rw [Grammar.error?_any]
    exact h
  | map item => exact ho
  | record name => exact ho
  | whole name =>
    refine bind_judged_iff fun {w rest'} ↦ ?_
    rw [ho, ObjectShape.error?_map_any]
    simp
  | text => simp [value, Grammar.error?, Grammar.settle]
  | flag => simp [value, Grammar.error?, Grammar.settle]
  | list item => simp [value, Grammar.error?, Grammar.settle]

/-- Items are read if the first one is and the others are behind it. -/
private theorem items_cons_iff {fuel depth : Nat} {item : Shape ρ} {first : Bool} {v : Value}
    {vs ws : List Value} {rest rest' : List Token}
    (hv : ∀ {w rest₁}, value g fuel depth item false (v.tokens ++ (itemTokens false vs ++ rest)) =
        .ok (w, rest₁) ↔
      (w = v ∧ rest₁ = itemTokens false vs ++ rest) ∧ v.nesting ≤ depth ∧ g.error? item v = none)
    (hvs : ∀ {ws}, items g fuel depth item false (itemTokens false vs ++ rest) =
        .ok (ws, rest') ↔
      (ws = vs ∧ rest' = rest) ∧ itemNesting vs ≤ depth ∧ g.itemError? item vs = none) :
    items g (fuel + 1) depth item first (itemTokens first (v :: vs) ++ rest) = .ok (ws, rest') ↔
      (ws = v :: vs ∧ rest' = rest) ∧ itemNesting (v :: vs) ≤ depth ∧
        g.itemError? item (v :: vs) = none := by
  rw [items, itemTokens, List.append_assoc, List.append_assoc, nextItem_element, bind_eq_ok_iff,
    itemNesting, Nat.max_le, Grammar.itemError?, Option.or_eq_none_iff]
  constructor
  · rintro ⟨next, hn, hr⟩
    rw [lift_eq_ok_iff] at hn
    cases hn
    obtain ⟨⟨v', rest₁⟩, hr₁, hr₂⟩ := bind_eq_ok_iff.mp hr
    obtain ⟨⟨rfl, rfl⟩, hd, hf₁⟩ := hv.mp hr₁
    obtain ⟨⟨vs', rest₂⟩, hi, he⟩ := bind_eq_ok_iff.mp hr₂
    cases he
    obtain ⟨⟨rfl, rfl⟩, hds, hf₂⟩ := hvs.mp hi
    exact ⟨⟨rfl, rfl⟩, ⟨hd, hds⟩, hf₁, hf₂⟩
  · rintro ⟨⟨rfl, rfl⟩, ⟨hd, hds⟩, hf₁, hf₂⟩
    have hr₁ := hv.mpr ⟨⟨rfl, rfl⟩, hd, hf₁⟩
    have hr₂ := hvs.mpr ⟨⟨rfl, rfl⟩, hds, hf₂⟩
    exact ⟨_, lift_eq_ok_iff.mpr rfl,
      bind_eq_ok_iff.mpr ⟨_, hr₁, bind_eq_ok_iff.mpr ⟨_, hr₂, rfl⟩⟩⟩

/-- Members are read if the first one is, in its place, and the others are behind it. -/
private theorem members_cons_iff {fuel depth : Nat} {shape : ObjectShape ρ} {key : String}
    {v : Value} {done ms ms' : Entries Value} {rest rest' : List Token}
    (hnew : key ∉ Entries.keys done)
    (hv : ∀ {item : Shape ρ} {nullable w rest₁},
      value g fuel depth item nullable (v.tokens ++ (memberTokens false ms ++ rest)) =
        .ok (w, rest₁) ↔
      (w = v ∧ rest₁ = memberTokens false ms ++ rest) ∧ v.nesting ≤ depth ∧
        g.faultIn? item nullable v = none)
    (hms : members g fuel depth shape (Entries.insert done key v)
        (memberTokens (Entries.insert done key v).isEmpty ms ++ rest) = .ok (ms', rest') ↔
      (ms' = Entries.insert done key v ++ ms ∧ rest' = rest) ∧ memberNesting ms ≤ depth ∧
        shape.error? g (Entries.keys (Entries.insert done key v)) ms = none) :
    members g (fuel + 1) depth shape done (memberTokens done.isEmpty ((key, v) :: ms) ++ rest) =
        .ok (ms', rest') ↔
      (ms' = done ++ (key, v) :: ms ∧ rest' = rest) ∧ memberNesting ((key, v) :: ms) ≤ depth ∧
        shape.error? g (Entries.keys done) ((key, v) :: ms) = none := by
  have hdone : done ++ (key, v) :: ms = Entries.insert done key v ++ ms := by
    rw [Entries.insert_of_not_mem hnew, List.append_assoc]
    rfl
  rw [hdone, members, memberTokens, List.append_assoc, List.cons_append, List.cons_append,
    List.append_assoc, nextKey_element, bind_eq_ok_iff, memberNesting, Nat.max_le,
    ObjectShape.error?_cons]
  rw [isEmpty_insert, Entries.keys_insert, if_neg hnew] at hms
  constructor
  · rintro ⟨next, hn, hr⟩
    rw [lift_eq_ok_iff] at hn
    cases hn
    dsimp only at hr
    cases hs : shape.slot g (Entries.keys done) key with
    | error e =>
      rw [hs] at hr
      cases hr
    | ok slot =>
      rw [hs] at hr
      obtain ⟨rest₁, hc, hr₁⟩ := bind_eq_ok_iff.mp hr
      rw [lift_eq_ok_iff] at hc
      cases hc
      obtain ⟨⟨v', rest₂⟩, hr₂, hr₃⟩ := bind_eq_ok_iff.mp hr₁
      obtain ⟨⟨rfl, rfl⟩, hd₁, hf₁⟩ := hv.mp hr₂
      obtain ⟨he, hd₂, hf₂⟩ := hms.mp hr₃
      exact ⟨he, ⟨hd₁, hd₂⟩, Option.or_eq_none_iff.mpr ⟨hf₁, hf₂⟩⟩
  · rintro ⟨he, ⟨hd₁, hd₂⟩, hf⟩
    refine ⟨_, lift_eq_ok_iff.mpr rfl, ?_⟩
    dsimp only
    cases hs : shape.slot g (Entries.keys done) key with
    | error e =>
      rw [hs] at hf
      cases hf
    | ok slot =>
      rw [hs] at hf
      obtain ⟨hf₁, hf₂⟩ := Option.or_eq_none_iff.mp hf
      have hr₁ := hv.mpr ⟨⟨rfl, rfl⟩, hd₁, hf₁⟩
      have hr₂ := hms.mpr ⟨he, hd₂, hf₂⟩
      exact bind_eq_ok_iff.mpr ⟨_, lift_eq_ok_iff.mpr rfl, bind_eq_ok_iff.mpr ⟨_, hr₁, hr₂⟩⟩

/-- A scalar is read if it has no fault. -/
private theorem scalar_iff {fault : Option ShapeError} {v w : Value} {rest rest' : List Token}
    {depth : Nat} : judged fault v rest = .ok (w, rest') ↔
      (w = v ∧ rest' = rest) ∧ 0 ≤ depth ∧ fault = none := by
  rw [judged_eq_ok_iff]
  simp

mutual

/-- The tokens of a value without repeated keys are read if the value is not nested too deeply and
has no fault; then they give the value. -/
private theorem value_tokens_iff : ∀ (v : Value), v.HasDistinctKeys →
    ∀ {fuel depth : Nat} {shape : Shape ρ} {nullable : Bool} {rest rest' : List Token} {w : Value},
      3 * v.tokens.length ≤ fuel →
      (value g fuel depth shape nullable (v.tokens ++ rest) = .ok (w, rest') ↔
        (w = v ∧ rest' = rest) ∧ v.nesting ≤ depth ∧ g.faultIn? shape nullable v = none)
  | .null, _, fuel + 1, _, _, _, _, _, _, _ => scalar_iff
  | .bool _, _, fuel + 1, _, _, _, _, _, _, _ => scalar_iff
  | .number _, _, fuel + 1, _, _, _, _, _, _, _ => scalar_iff
  | .string _, _, fuel + 1, _, _, _, _, _, _, _ => scalar_iff
  | .array vs, hk, fuel, depth, _, _, _, _, _, hf => by
    -- one call for the value, one for the array, and what is left goes to the items
    rw [tokens, List.length_cons] at hf
    obtain ⟨fuel, rfl⟩ : ∃ n, fuel = n + 2 := ⟨fuel - 2, by omega⟩
    exact value_array_iff (array_iff (items_tokens_iff vs hk (by omega)) depth)
  | .object ms, hk, fuel, depth, _, _, _, _, _, hf => by
    rw [tokens, List.length_cons] at hf
    obtain ⟨fuel, rfl⟩ : ∃ n, fuel = n + 2 := ⟨fuel - 2, by omega⟩
    have hl : 3 * (memberTokens true ms).length ≤ fuel := by omega
    exact value_object_iff (object_iff (members_tokens_iff ms hk.2 hk.1 hl) depth)

/-- The tokens of items without repeated keys are read if no item is nested too deeply and none has
a fault; then they give the items. -/
private theorem items_tokens_iff : ∀ (vs : List Value), ItemsHaveDistinctKeys vs →
    ∀ {fuel depth : Nat} {item : Shape ρ} {first : Bool} {rest rest' : List Token}
      {ws : List Value}, 3 * (itemTokens first vs).length ≤ fuel →
      (items g fuel depth item first (itemTokens first vs ++ rest) = .ok (ws, rest') ↔
        (ws = vs ∧ rest' = rest) ∧ itemNesting vs ≤ depth ∧ g.itemError? item vs = none)
  | [], _, fuel + 1, _, _, _, _, _, _, _ => by
    simp [items, itemTokens, nextItem, lift, itemNesting, Grammar.itemError?, bind, Except.bind,
      pure, Except.pure, eq_comm]
  | v :: vs, hk, fuel, depth, item, first, rest, rest', ws, hf => by
    rw [itemTokens, List.length_append, List.length_append] at hf
    have hv := length_tokens_pos v
    have hvs := length_itemTokens_pos false vs
    obtain ⟨fuel, rfl⟩ : ∃ n, fuel = n + 1 := ⟨fuel - 1, by omega⟩
    exact items_cons_iff (value_tokens_iff v hk.1 (by omega)) (items_tokens_iff vs hk.2 (by omega))

/-- The tokens of members without repeated keys, behind those of others, are read if none is nested
too deeply and none has a fault in its place; then they give the members. -/
private theorem members_tokens_iff : ∀ (ms : List (String × Value)), MembersHaveDistinctKeys ms →
    ∀ {done : Entries Value} {fuel depth : Nat} {shape : ObjectShape ρ} {rest rest' : List Token}
      {ms' : Entries Value}, (Entries.keys (done ++ ms)).Nodup →
      3 * (memberTokens done.isEmpty ms).length ≤ fuel →
      (members g fuel depth shape done (memberTokens done.isEmpty ms ++ rest) = .ok (ms', rest') ↔
        (ms' = done ++ ms ∧ rest' = rest) ∧ memberNesting ms ≤ depth ∧
          shape.error? g (Entries.keys done) ms = none)
  | [], _, done, fuel + 1, _, shape, _, _, _, _, _ => by
    rw [members, memberTokens, List.append_nil, ObjectShape.error?_nil]
    change (match shape.missing? g (Entries.keys done) with
      | some e => throw (ReadError.notShape e)
      | none => pure (done, _)) = _ ↔ _
    cases shape.missing? g (Entries.keys done) with
    | none => simp [memberNesting, pure, Except.pure, eq_comm]
    | some e => simp [throw, throwThe, MonadExceptOf.throw]
  | (key, v) :: ms, hk, done, fuel, depth, shape, rest, rest', ms', hd, hf => by
    rw [memberTokens, List.length_append, List.length_cons, List.length_cons, List.length_append]
      at hf
    obtain ⟨fuel, rfl⟩ : ∃ n, fuel = n + 1 := ⟨fuel - 1, by omega⟩
    have hnew : key ∉ Entries.keys done := by
      rw [Entries.keys, List.map_append, List.map_cons, List.nodup_middle] at hd
      have h := (List.nodup_cons.mp hd).1
      rw [List.mem_append, not_or] at h
      exact h.1
    have hd' : (Entries.keys (Entries.insert done key v ++ ms)).Nodup := by
      rw [Entries.insert_of_not_mem hnew, List.append_assoc]
      exact hd
    have hl : 3 * (memberTokens (Entries.insert done key v).isEmpty ms).length ≤ fuel := by
      rw [isEmpty_insert]
      omega
    exact members_cons_iff hnew (value_tokens_iff v hk.1 (by omega))
      (members_tokens_iff ms hk.2 hd' hl)

end

/-! ## Whole texts -/

/-- A text that can be read spells a value. -/
theorem exists_spells_of_read {shape : Shape ρ} {text : String} {v : Value}
    (h : read g shape text = .ok v) : ∃ w : Value, w.Spells text := by
  obtain ⟨⟨v', rest⟩, hv, he⟩ := bind_eq_ok_iff.mp h
  obtain ⟨w, hw⟩ := (spelledAt g _).value hv
  cases rest with
  | nil => exact ⟨w, hw.trans (List.append_nil _)⟩
  | cons token rest => cases he

/-- A text that spells a value without repeated keys is read if the value is not nested too deeply
and has no fault; then it gives the value. -/
theorem read_eq_ok_iff {v : Value} {text : String} (hs : v.Spells text) (hk : v.HasDistinctKeys)
    (shape : Shape ρ) (w : Value) :
    read g shape text = .ok w ↔ w = v ∧ v.nesting ≤ maxDepth ∧ g.error? shape v = none := by
  have hv {w rest'} : value g (4 * v.tokens.length + 4) maxDepth shape false v.tokens =
        .ok (w, rest') ↔
      (w = v ∧ rest' = []) ∧ v.nesting ≤ maxDepth ∧ g.error? shape v = none := by
    have hf : 3 * v.tokens.length ≤ 4 * v.tokens.length + 4 := by omega
    rw [← Grammar.faultIn?_false, ← List.append_nil v.tokens]
    exact value_tokens_iff v hk (by rwa [List.append_nil])
  rw [read, hs, bind_eq_ok_iff]
  constructor
  · rintro ⟨⟨v', rest⟩, hr, he⟩
    obtain ⟨⟨rfl, rfl⟩, hn⟩ := hv.mp hr
    cases he
    exact ⟨rfl, hn⟩
  · rintro ⟨rfl, hn⟩
    exact ⟨_, hv.mpr ⟨⟨rfl, rfl⟩, hn⟩, rfl⟩

end Reader

end RpcForge.Json

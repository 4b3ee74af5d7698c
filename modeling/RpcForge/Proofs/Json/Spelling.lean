import RpcForge.Json.Token
import RpcForge.Json.Value

/-!
# The tokens of a value

A value with all members of its objects, repeated keys included, is spelled by one list of tokens,
and no other value is spelled so. A text therefore stands for one such value at most, of which it
makes sense to ask whether one of its objects repeats a key.
-/

namespace RpcForge.Json

/-- What stands before an element inside brackets: nothing before the first one, a comma before any
other. -/
def separator : Bool → List Token
  | true => []
  | false => [.comma]

namespace Value

mutual

/-- The tokens that spell a value. -/
def tokens : Value → List Token
  | .null => [.null]
  | .bool b => [.bool b]
  | .number n => [.number n]
  | .string s => [.string s]
  | .array vs => .openArray :: itemTokens true vs
  | .object members => .openObject :: memberTokens true members

/-- The tokens that spell items and the bracket behind them, where `first` says that no item stands
before them. -/
def itemTokens : Bool → List Value → List Token
  | _, [] => [.closeArray]
  | first, v :: vs => separator first ++ (tokens v ++ itemTokens false vs)

/-- The tokens that spell members and the brace behind them, where `first` says that no member
stands before them. -/
def memberTokens : Bool → List (String × Value) → List Token
  | _, [] => [.closeObject]
  | first, (key, v) :: rest =>
    separator first ++ .string key :: .colon :: (tokens v ++ memberTokens false rest)

end

mutual

/-- How deep arrays and objects are nested in a value. -/
def nesting : Value → Nat
  | .array vs => itemNesting vs + 1
  | .object members => memberNesting members + 1
  | _ => 0

/-- How deep arrays and objects are nested in items. -/
def itemNesting : List Value → Nat
  | [] => 0
  | v :: vs => max (nesting v) (itemNesting vs)

/-- How deep arrays and objects are nested in members. -/
def memberNesting : List (String × Value) → Nat
  | [] => 0
  | (_, v) :: rest => max (nesting v) (memberNesting rest)

end

mutual

/-- No object in a value repeats a key. -/
def HasDistinctKeys : Value → Prop
  | .array vs => ItemsHaveDistinctKeys vs
  | .object members => (Entries.keys members).Nodup ∧ MembersHaveDistinctKeys members
  | _ => True

/-- No object in one of the items repeats a key. -/
def ItemsHaveDistinctKeys : List Value → Prop
  | [] => True
  | v :: vs => HasDistinctKeys v ∧ ItemsHaveDistinctKeys vs

/-- No object in the value of one of the members repeats a key. -/
def MembersHaveDistinctKeys : List (String × Value) → Prop
  | [] => True
  | (_, v) :: rest => HasDistinctKeys v ∧ MembersHaveDistinctKeys rest

end

theorem itemsHaveDistinctKeys_iff (vs : List Value) :
    ItemsHaveDistinctKeys vs ↔ ∀ v ∈ vs, HasDistinctKeys v := by
  induction vs with
  | nil => simp [ItemsHaveDistinctKeys]
  | cons v vs ih => rw [ItemsHaveDistinctKeys, ih, List.forall_mem_cons]

theorem membersHaveDistinctKeys_iff (members : Entries Value) :
    MembersHaveDistinctKeys members ↔ ∀ key v, (key, v) ∈ members → HasDistinctKeys v := by
  induction members with
  | nil => simp [MembersHaveDistinctKeys]
  | cons member rest ih =>
    obtain ⟨key, v⟩ := member
    rw [MembersHaveDistinctKeys, ih]
    constructor
    · rintro ⟨hv, hr⟩ key' w hm
      rcases List.mem_cons.mp hm with he | hm
      · cases he
        exact hv
      · exact hr key' w hm
    · exact fun h ↦ ⟨h key v (.head _), fun key' w hm ↦ h key' w (.tail _ hm)⟩

/-- A text spells a value. -/
def Spells (v : Value) (text : String) : Prop :=
  Token.ofChars text.toList = v.tokens

/-- The first token of a value opens brackets or is the whole value; it never closes brackets and is
no comma. -/
theorem exists_tokens_eq_cons (v : Value) : ∃ token rest, v.tokens = token :: rest ∧
    token ≠ .closeArray ∧ token ≠ .closeObject ∧ token ≠ .comma := by
  cases v <;> exact ⟨_, _, rfl, by simp, by simp, by simp⟩

theorem length_tokens_pos (v : Value) : 0 < v.tokens.length := by
  obtain ⟨token, rest, he, _⟩ := exists_tokens_eq_cons v
  rw [he]
  exact Nat.succ_pos _

theorem length_itemTokens_pos (first : Bool) (vs : List Value) :
    0 < (itemTokens first vs).length := by
  cases vs with
  | nil => exact Nat.one_pos
  | cons v vs =>
    have h := length_tokens_pos v
    rw [itemTokens, List.length_append, List.length_append]
    omega

/-! ## One value for a list of tokens -/

mutual

/-- Where the tokens of two values begin alike, the values and what follows them are the same. -/
private theorem tokens_append_inj : ∀ (v w : Value) {rest rest' : List Token},
    v.tokens ++ rest = w.tokens ++ rest' → v = w ∧ rest = rest'
  | .null, w, _, _, h => by cases w <;> simp_all [tokens]
  | .bool _, w, _, _, h => by cases w <;> simp_all [tokens]
  | .number _, w, _, _, h => by cases w <;> simp_all [tokens]
  | .string _, w, _, _, h => by cases w <;> simp_all [tokens]
  | .array vs, w, _, _, h => by
    cases w with
    | array ws =>
      obtain ⟨rfl, hr⟩ := itemTokens_append_inj true vs ws (List.cons.inj h).2
      exact ⟨rfl, hr⟩
    | _ => simp [tokens] at h
  | .object members, w, _, _, h => by
    cases w with
    | object members' =>
      obtain ⟨rfl, hr⟩ := memberTokens_append_inj true members members' (List.cons.inj h).2
      exact ⟨rfl, hr⟩
    | _ => simp [tokens] at h

/-- Where the tokens of two lists of items begin alike, the items and what follows them are the
same. -/
private theorem itemTokens_append_inj :
    ∀ (first : Bool) (vs ws : List Value) {rest rest' : List Token},
      itemTokens first vs ++ rest = itemTokens first ws ++ rest' → vs = ws ∧ rest = rest'
  | _, [], [], _, _, h => ⟨rfl, (List.cons.inj h).2⟩
  | first, [], w :: ws, _, _, h => by
    obtain ⟨token, _, he, hne, _⟩ := exists_tokens_eq_cons w
    cases first <;> simp_all [itemTokens, separator]
  | first, v :: vs, [], _, _, h => by
    obtain ⟨token, _, he, hne, _⟩ := exists_tokens_eq_cons v
    cases first <;> simp_all [itemTokens, separator]
  | first, v :: vs, w :: ws, _, _, h => by
    simp only [itemTokens, List.append_assoc, List.append_cancel_left_eq] at h
    obtain ⟨rfl, ht⟩ := tokens_append_inj v w h
    obtain ⟨rfl, hr⟩ := itemTokens_append_inj false vs ws ht
    exact ⟨rfl, hr⟩

/-- Where the tokens of two lists of members begin alike, the members and what follows them are the
same. -/
private theorem memberTokens_append_inj : ∀ (first : Bool) (ms ms' : List (String × Value))
    {rest rest' : List Token},
    memberTokens first ms ++ rest = memberTokens first ms' ++ rest' → ms = ms' ∧ rest = rest'
  | _, [], [], _, _, h => ⟨rfl, (List.cons.inj h).2⟩
  | first, [], _ :: _, _, _, h => by cases first <;> simp [memberTokens, separator] at h
  | first, _ :: _, [], _, _, h => by cases first <;> simp [memberTokens, separator] at h
  | first, (key, v) :: ms, (key', v') :: ms', _, _, h => by
    simp only [memberTokens, List.append_assoc, List.append_cancel_left_eq, List.cons_append,
      List.cons.injEq, Token.string.injEq, true_and] at h
    obtain ⟨rfl, h⟩ := h
    obtain ⟨rfl, ht⟩ := tokens_append_inj v v' h
    obtain ⟨rfl, hr⟩ := memberTokens_append_inj false ms ms' ht
    exact ⟨rfl, hr⟩

end

/-- A text spells one value at most. -/
theorem Spells.unique {text : String} {v w : Value} (hv : v.Spells text) (hw : w.Spells text) :
    v = w := by
  have h : v.tokens ++ [] = w.tokens ++ [] := by rw [← hv, ← hw]
  exact (tokens_append_inj v w h).1

end Value

/-- No object of a text repeats a key. -/
def RepeatsNoKey (text : String) : Prop :=
  ∀ v : Value, v.Spells text → v.HasDistinctKeys

end RpcForge.Json

import Mathlib.Data.List.Infix
import Mathlib.Data.List.Nodup
import RpcForge.Proofs.Text.Replace

/-!
# Substitution

Putting other text in place of several parts of a text, of all of them at once and of one after
another. The two differ where a part comes up only by what was put in place of an earlier one, so
they are compared by the number of times that a part occurs.
-/

namespace RpcForge.Text

/-! ### Where parts begin -/

/-- A part begins at some character of the first of two stretches. -/
def BeginsWithin (part front back : List Char) : Prop :=
  ∃ s, s <:+ front ∧ s ≠ [] ∧ part <+: s ++ back

private theorem beginsWithin_cons {part front back : List Char} {c : Char} :
    BeginsWithin part (c :: front) back ↔
      part <+: c :: (front ++ back) ∨ BeginsWithin part front back := by
  constructor
  · rintro ⟨s, hs, hne, hp⟩
    obtain rfl | hs := List.suffix_cons_iff.mp hs
    · exact .inl hp
    · exact .inr ⟨s, hs, hne, hp⟩
  · rintro (hp | ⟨s, hs, hne, hp⟩)
    · exact ⟨c :: front, List.suffix_refl _, List.cons_ne_nil _ _, hp⟩
    · exact ⟨s, hs.trans (List.suffix_cons _ _), hne, hp⟩

/-- A part begins within a stretch only if the stretch has the first character of the part. -/
theorem not_beginsWithin_of_notMem {c : Char} {part front : List Char} (h : c ∉ front)
    (back : List Char) : ¬BeginsWithin (c :: part) front back := by
  rintro ⟨s, hs, hne, hp⟩
  cases s with
  | nil => exact hne rfl
  | cons d s =>
    obtain ⟨rfl, -⟩ := List.cons_prefix_cons.mp hp
    exact h (hs.subset List.mem_cons_self)

/-- No text has an occurrence of the second part that begins within one of the first, except where
both are the same occurrence of the same part. -/
def Apart (p q : List Char) : Prop :=
  ∀ s, s <:+ p → s ≠ [] → ∀ back, q <+: s ++ back → s = p ∧ q = p

theorem Apart.not_beginsWithin {p q : List Char} (h : Apart p q) (hne : q ≠ p) (back : List Char) :
    ¬BeginsWithin q p back := by
  rintro ⟨s, hs, hn, hp⟩
  exact hne (h s hs hn back hp).2

private theorem Apart.not_beginsWithin_tail {c : Char} {p : List Char} (h : Apart (c :: p) (c :: p))
    (back : List Char) : ¬BeginsWithin (c :: p) p back := by
  rintro ⟨s, hs, hn, hp⟩
  obtain ⟨rfl, -⟩ := h s (hs.trans (List.suffix_cons _ _)) hn back hp
  exact absurd hs.length_le (Nat.not_succ_le_self _)

/-! ### Counting -/

/-- The number of places at which a part begins. -/
def occurrences (part : List Char) : List Char → Nat
  | [] => 0
  | c :: cs => (if part.isPrefixOf (c :: cs) then 1 else 0) + occurrences part cs

private theorem isPrefixOf_eq_false {part cs : List Char} (h : ¬part <+: cs) :
    part.isPrefixOf cs = false := by
  rw [Bool.eq_false_iff, ne_eq, List.isPrefixOf_iff_prefix]
  exact h

private theorem occurrences_cons_pos {part cs : List Char} {c : Char} (h : part <+: c :: cs) :
    occurrences part (c :: cs) = occurrences part cs + 1 := by
  rw [occurrences, if_pos (List.isPrefixOf_iff_prefix.mpr h), Nat.add_comm]

private theorem occurrences_cons_neg {part cs : List Char} {c : Char} (h : ¬part <+: c :: cs) :
    occurrences part (c :: cs) = occurrences part cs := by
  rw [occurrences, isPrefixOf_eq_false h, if_neg Bool.false_ne_true, Nat.zero_add]

theorem occurrences_append {part front back : List Char} (h : ¬BeginsWithin part front back) :
    occurrences part (front ++ back) = occurrences part back := by
  induction front with
  | nil => rfl
  | cons c front ih =>
    rw [beginsWithin_cons, not_or] at h
    rw [List.cons_append, occurrences_cons_neg h.1, ih h.2]

private theorem occurrences_self_append {part : List Char} (hne : part ≠ []) (h : Apart part part)
    (back : List Char) : occurrences part (part ++ back) = occurrences part back + 1 := by
  cases part with
  | nil => exact absurd rfl hne
  | cons c part =>
    have hp : c :: part <+: c :: (part ++ back) := List.prefix_append (c :: part) back
    rw [List.cons_append, occurrences_cons_pos hp,
      occurrences_append (h.not_beginsWithin_tail back)]

/-! ### All at once -/

/-- What a text becomes when each occurrence of a part, from left to right, gives way to what is
paired with the part, and nothing else changes. -/
inductive Substituted (pairs : List (List Char × List Char)) : List Char → List Char → Prop
  | nil : Substituted pairs [] []
  | part {old new cs ds : List Char} : (old, new) ∈ pairs → Substituted pairs cs ds →
      Substituted pairs (old ++ cs) (new ++ ds)
  | char {c : Char} {cs ds : List Char} : (∀ pair ∈ pairs, ¬pair.1 <+: c :: cs) →
      Substituted pairs cs ds → Substituted pairs (c :: cs) (c :: ds)

/-- Parts none of which overlaps with itself or with another one in any text. -/
structure Separate (pairs : List (List Char × List Char)) : Prop where
  nodup : (pairs.map Prod.fst).Nodup
  ne_nil : ∀ pair ∈ pairs, pair.1 ≠ []
  apart : ∀ pair ∈ pairs, ∀ other ∈ pairs, Apart pair.1 other.1

section

variable {pairs : List (List Char × List Char)} {old new front cs ds es : List Char}

theorem Separate.sublist {others : List (List Char × List Char)} (h : Separate pairs)
    (hs : others.Sublist pairs) : Separate others where
  nodup := h.nodup.sublist (hs.map _)
  ne_nil pair hp := h.ne_nil pair (hs.subset hp)
  apart pair hp other ho := h.apart pair (hs.subset hp) other (hs.subset ho)

private theorem Separate.eq_of_begins (h : Separate pairs) {pair other : List Char × List Char}
    (hp : pair ∈ pairs) (ho : other ∈ pairs) (hpre : other.1 <+: pair.1 ++ cs) : other = pair := by
  have hk := h.apart pair hp other ho pair.1 (List.suffix_refl _) (h.ne_nil pair hp) cs hpre
  exact List.inj_on_of_nodup_map h.nodup ho hp hk.2

/-- A further part is none of those before it. -/
theorem Separate.ne_last (h : Separate (pairs ++ [(old, new)])) {pair : List Char × List Char}
    (hp : pair ∈ pairs) : pair.1 ≠ old := by
  have hn := h.nodup
  rw [List.map_append, List.nodup_append] at hn
  exact hn.2.2 pair.1 (List.mem_map_of_mem hp) old (List.mem_singleton_self _)

/-- Only membership counts, not the order of the pairs. -/
theorem Substituted.of_mem_iff {others : List (List Char × List Char)}
    (h : Substituted pairs cs ds) (hm : ∀ pair, pair ∈ pairs ↔ pair ∈ others) :
    Substituted others cs ds := by
  induction h with
  | nil => exact .nil
  | part hp _ ih => exact .part ((hm _).mp hp) ih
  | char hn _ ih => exact .char (fun pair hp ↦ hn pair ((hm pair).mpr hp)) ih

theorem substituted_nil (cs : List Char) : Substituted [] cs cs := by
  induction cs with
  | nil => exact .nil
  | cons c cs ih => exact .char (List.forall_mem_nil _) ih

theorem Substituted.eq_nil (hne : ∀ pair ∈ pairs, pair.1 ≠ []) (h : Substituted pairs [] ds) :
    ds = [] := by
  generalize ht : ([] : List Char) = cs at h
  cases h with
  | nil => rfl
  | part hp _ => exact absurd (List.append_eq_nil_iff.mp ht.symm).1 (hne _ hp)
  | char _ _ => cases ht

theorem Substituted.append (hn : ∀ pair ∈ pairs, ¬BeginsWithin pair.1 front cs)
    (h : Substituted pairs cs ds) : Substituted pairs (front ++ cs) (front ++ ds) := by
  induction front with
  | nil => exact h
  | cons c front ih =>
    simp only [beginsWithin_cons, not_or] at hn
    exact .char (fun pair hp ↦ (hn pair hp).1) (ih fun pair hp ↦ (hn pair hp).2)

/-- A stretch in which no part begins stays as it is. -/
theorem Substituted.of_append (hn : ∀ pair ∈ pairs, ¬BeginsWithin pair.1 front cs)
    (h : Substituted pairs (front ++ cs) ds) :
    ∃ es, ds = front ++ es ∧ Substituted pairs cs es := by
  induction front generalizing ds with
  | nil => exact ⟨ds, rfl, h⟩
  | cons c front ih =>
    simp only [beginsWithin_cons, not_or] at hn
    generalize ht : c :: front ++ cs = text at h
    cases h with
    | nil => cases ht
    | part hp _ =>
      refine absurd ?_ (hn _ hp).1
      rw [← List.cons_append, ht]
      exact List.prefix_append _ _
    | char _ hs =>
      obtain ⟨rfl, rfl⟩ := List.cons.inj ht
      obtain ⟨es, rfl, he⟩ := ih (fun pair hp ↦ (hn pair hp).2) hs
      exact ⟨es, rfl, he⟩

private theorem Substituted.of_cons {c : Char} (hn : ∀ pair ∈ pairs, ¬pair.1 <+: c :: cs)
    (h : Substituted pairs (c :: cs) ds) : ∃ es, ds = c :: es ∧ Substituted pairs cs es := by
  have hb : ∀ pair ∈ pairs, ¬BeginsWithin pair.1 [c] cs := by
    intro pair hp
    rw [beginsWithin_cons, not_or]
    refine ⟨hn pair hp, ?_⟩
    rintro ⟨s, hs, hne, -⟩
    exact hne (List.suffix_nil.mp hs)
  exact Substituted.of_append hb h

/-- A part gives way to what is paired with it. -/
private theorem Substituted.of_part (hs : Separate pairs) (hm : (old, new) ∈ pairs)
    (h : Substituted pairs (old ++ cs) ds) : ∃ es, ds = new ++ es ∧ Substituted pairs cs es := by
  generalize ht : old ++ cs = text at h
  cases h with
  | nil => exact absurd (List.append_eq_nil_iff.mp ht).1 (hs.ne_nil _ hm)
  | part hp hr =>
    have hpre : _ <+: old ++ cs := ht.symm ▸ List.prefix_append _ _
    have he := hs.eq_of_begins hm hp hpre
    obtain ⟨rfl, rfl⟩ := Prod.mk.inj he
    obtain rfl := List.append_cancel_left ht
    exact ⟨_, rfl, hr⟩
  | char hn _ =>
    refine absurd ?_ (hn _ hm)
    rw [← ht]
    exact List.prefix_append _ _

theorem exists_substituted (hne : ∀ pair ∈ pairs, pair.1 ≠ []) (cs : List Char) :
    ∃ ds, Substituted pairs cs ds := by
  induction hl : cs.length using Nat.strong_induction_on generalizing cs with
  | _ n ih =>
    subst hl
    cases cs with
    | nil => exact ⟨[], .nil⟩
    | cons c cs =>
      by_cases hp : ∃ pair ∈ pairs, pair.1 <+: c :: cs
      · obtain ⟨⟨old, new⟩, hm, rest, ht⟩ := hp
        have hl : rest.length < (c :: cs).length := by
          have := List.length_pos_of_ne_nil (hne _ hm)
          rw [← ht, List.length_append]
          omega
        obtain ⟨ds, hd⟩ := ih _ hl rest rfl
        exact ⟨new ++ ds, ht ▸ .part hm hd⟩
      · obtain ⟨ds, hd⟩ := ih _ (Nat.lt_succ_self _) cs rfl
        exact ⟨c :: ds, .char (fun pair hm h ↦ hp ⟨pair, hm, h⟩) hd⟩

/-- Parts that never overlap leave no choice. -/
theorem Substituted.unique (hs : Separate pairs) (h : Substituted pairs cs ds)
    (h' : Substituted pairs cs es) : ds = es := by
  induction h generalizing es with
  | nil => exact (h'.eq_nil hs.ne_nil).symm
  | part hm _ ih =>
    obtain ⟨es, rfl, he⟩ := h'.of_part hs hm
    rw [ih he]
  | char hn _ ih =>
    obtain ⟨es, rfl, he⟩ := h'.of_cons hn
    rw [ih he]

end

/-! ### Some of the occurrences of a part -/

/-- The second text is the first one with another part put in place of that many occurrences. -/
inductive Exchanged (old new : List Char) : Nat → List Char → List Char → Prop
  | nil : Exchanged old new 0 [] []
  | char {n : Nat} {cs ds : List Char} (c : Char) : Exchanged old new n cs ds →
      Exchanged old new n (c :: cs) (c :: ds)
  | part {n : Nat} {cs ds : List Char} : Exchanged old new n cs ds →
      Exchanged old new (n + 1) (old ++ cs) (new ++ ds)

section

variable {old new cs ds : List Char} {n : Nat}

private theorem Exchanged.append (h : Exchanged old new n cs ds) (front : List Char) :
    Exchanged old new n (front ++ cs) (front ++ ds) := by
  induction front with
  | nil => exact h
  | cons c front ih => exact .char c ih

private theorem Exchanged.eq_self (h : Exchanged old old n cs ds) : ds = cs := by
  induction h with
  | nil => rfl
  | char c _ ih => rw [ih]
  | part _ ih => rw [ih]

theorem Exchanged.length_eq (h : Exchanged old new n cs ds) :
    ds.length + n * old.length = cs.length + n * new.length := by
  induction h with
  | nil => simp
  | char c _ ih =>
    rw [List.length_cons, List.length_cons]
    omega
  | part _ ih =>
    rw [List.length_append, List.length_append, Nat.succ_mul, Nat.succ_mul]
    omega

/-- The two parts have one length if the same texts differ by more exchanges and by fewer. -/
private theorem Exchanged.length_new {m : Nat} (h : Exchanged old new n cs ds)
    (h' : Exchanged old new m cs ds) (hlt : n < m) : new.length = old.length := by
  obtain ⟨k, rfl⟩ := Nat.exists_eq_add_of_lt hlt
  have hn := h.length_eq
  have hm := h'.length_eq
  rw [Nat.add_assoc, Nat.add_mul n, Nat.add_mul n] at hm
  have he : (k + 1) * new.length = (k + 1) * old.length := by omega
  exact Nat.eq_of_mul_eq_mul_left (Nat.succ_pos k) he

private theorem Exchanged.of_append {front : List Char} (hn : ¬BeginsWithin old front cs)
    (h : Exchanged old new n (front ++ cs) ds) :
    ∃ es, ds = front ++ es ∧ Exchanged old new n cs es := by
  induction front generalizing ds with
  | nil => exact ⟨ds, rfl, h⟩
  | cons c front ih =>
    rw [beginsWithin_cons, not_or] at hn
    generalize ht : c :: front ++ cs = text at h
    cases h with
    | nil => cases ht
    | char _ hs =>
      obtain ⟨rfl, rfl⟩ := List.cons.inj ht
      obtain ⟨es, rfl, he⟩ := ih hn.2 hs
      exact ⟨es, rfl, he⟩
    | part _ =>
      refine absurd ?_ hn.1
      rw [← List.cons_append, ht]
      exact List.prefix_append _ _

/-- Of one part alone there is what replacing it gives. -/
private theorem Substituted.eq_replaceFrom (hne : old ≠ []) (h : Substituted [(old, new)] cs ds) :
    ds = replaceFrom old new 0 cs := by
  induction h with
  | nil => rfl
  | part hm _ ih =>
    obtain ⟨rfl, rfl⟩ := Prod.mk.inj (List.mem_singleton.mp hm)
    rw [replaceFrom_self_append hne, ih]
  | char hn _ ih =>
    rw [replaceFrom_elsewhere (isPrefixOf_eq_false (hn _ (List.mem_singleton_self _))), ih]

variable (hne : old ≠ []) (ha : Apart old old)

include hne ha

/-- No more occurrences can give way than there are. -/
private theorem Exchanged.le_occurrences (h : Exchanged old new n cs ds) :
    n ≤ occurrences old cs := by
  induction h with
  | nil => exact Nat.le_refl _
  | char c _ ih => exact Nat.le_trans ih (Nat.le_add_left _ _)
  | part _ ih =>
    rw [occurrences_self_append hne ha]
    exact Nat.succ_le_succ ih

/-- If as many give way as there are, all of them are replaced. -/
private theorem Exchanged.eq_replaceFrom (h : Exchanged old new n cs ds)
    (hn : occurrences old cs = n) :
    ds = replaceFrom old new 0 cs := by
  induction h with
  | nil => rfl
  | @char n cs ds c h ih =>
    have hle := h.le_occurrences hne ha
    by_cases hp : old <+: c :: cs
    · rw [occurrences_cons_pos hp] at hn
      omega
    · rw [occurrences_cons_neg hp] at hn
      rw [replaceFrom_elsewhere (isPrefixOf_eq_false hp), ih hn]
  | part _ ih =>
    rw [occurrences_self_append hne ha] at hn
    rw [replaceFrom_self_append hne, ih (Nat.succ.inj hn)]

/-- If an occurrence was left out, it shows, unless the other part is the same. -/
private theorem Exchanged.eq_of_lt (h : Exchanged old new n cs (replaceFrom old new 0 cs))
    (hl : new.length = old.length) (hn : n < occurrences old cs) : new = old := by
  generalize hd : replaceFrom old new 0 cs = ds at h
  induction h with
  | nil => exact absurd hn (Nat.not_lt_zero _)
  | @char n cs ds c h ih =>
    by_cases hp : old <+: c :: cs
    · -- here the occurrence was left out, so what stands in its place is the part itself
      obtain ⟨rest, ht⟩ := hp
      rw [← ht, replaceFrom_self_append hne] at hd
      cases old with
      | nil => exact absurd rfl hne
      | cons _ old =>
        obtain ⟨rfl, rfl⟩ := List.cons.inj ht
        obtain ⟨es, rfl, -⟩ := h.of_append (ha.not_beginsWithin_tail rest)
        exact (List.append_inj hd hl).1
    · rw [replaceFrom_elsewhere (isPrefixOf_eq_false hp)] at hd
      rw [occurrences_cons_neg hp] at hn
      exact ih hn (List.cons.inj hd).2
  | part _ ih =>
    rw [occurrences_self_append hne ha] at hn
    rw [replaceFrom_self_append hne] at hd
    exact ih (Nat.lt_of_succ_lt_succ hn) (List.append_cancel_left hd)

end

/-! ### One after another -/

section

variable {pairs : List (List Char × List Char)} {old new cs ds es : List Char}

/-- One more part among those that are substituted at once takes the places at which it occurs in
the text as it was at first. -/
private theorem Substituted.exchanged (hs : Separate (pairs ++ [(old, new)]))
    (h : Substituted pairs cs ds) (h' : Substituted (pairs ++ [(old, new)]) cs es) :
    Exchanged old new (occurrences old cs) ds es := by
  have hm : (old, new) ∈ pairs ++ [(old, new)] := List.mem_concat_self
  have hp : Separate pairs := hs.sublist (List.sublist_append_left _ _)
  induction h' generalizing ds with
  | nil =>
    rw [h.eq_nil hp.ne_nil]
    exact .nil
  | part hpart _ ih =>
    rcases List.mem_append.mp hpart with hold | hnew
    · obtain ⟨ds, rfl, hd⟩ := h.of_part hp hold
      have hb := (hs.apart _ hpart _ hm).not_beginsWithin (hs.ne_last hold).symm
      rw [occurrences_append (hb _)]
      exact (ih hd).append _
    · obtain ⟨rfl, rfl⟩ := Prod.mk.inj (List.mem_singleton.mp hnew)
      have hb : ∀ pair ∈ pairs, ∀ back, ¬BeginsWithin pair.1 _ back := fun pair hpair ↦
        (hs.apart _ hm pair (List.mem_append_left _ hpair)).not_beginsWithin (hs.ne_last hpair)
      obtain ⟨ds, rfl, hd⟩ := h.of_append fun pair hpair ↦ hb pair hpair _
      rw [occurrences_self_append (hs.ne_nil _ hm) (hs.apart _ hm _ hm)]
      exact (ih hd).part
  | char hn _ ih =>
    obtain ⟨ds, rfl, hd⟩ := h.of_cons fun pair hpair ↦ hn pair (List.mem_append_left _ hpair)
    rw [occurrences_cons_neg (hn _ hm)]
    exact (ih hd).char _

private theorem exchanged_replaceFrom (hne : old ≠ []) (ha : Apart old old) (cs : List Char) :
    Exchanged old new (occurrences old cs) cs (replaceFrom old new 0 cs) := by
  have hs : Separate ([] ++ [(old, new)]) :=
    ⟨List.nodup_singleton _, by simpa using hne, by simpa using ha⟩
  obtain ⟨ds, hd⟩ := exists_substituted hs.ne_nil cs
  rw [← Substituted.eq_replaceFrom hne hd]
  exact (substituted_nil cs).exchanged hs hd

/-- To replace one more part in the text as it has become is to substitute it along with the others
exactly if the part occurs there as often as in the text as it was, or stands for itself. -/
theorem Substituted.replaceFrom_iff (hs : Separate (pairs ++ [(old, new)]))
    (h : Substituted pairs cs ds) :
    Substituted (pairs ++ [(old, new)]) cs (replaceFrom old new 0 ds) ↔
      occurrences old ds = occurrences old cs ∨ new = old := by
  have hm : (old, new) ∈ pairs ++ [(old, new)] := List.mem_concat_self
  have hne := hs.ne_nil _ hm
  have ha := hs.apart _ hm _ hm
  have hall : Exchanged old new _ ds _ := exchanged_replaceFrom hne ha ds
  constructor
  · intro h'
    have hsome := h.exchanged hs h'
    rcases Nat.eq_or_lt_of_le (hsome.le_occurrences hne ha) with heq | hlt
    · exact .inl heq.symm
    · exact .inr (hsome.eq_of_lt hne ha (hsome.length_new hall hlt) hlt)
  · intro hor
    obtain ⟨es, he⟩ := exists_substituted hs.ne_nil cs
    have hsome := h.exchanged hs he
    rcases hor with heq | rfl
    · rw [← hsome.eq_replaceFrom hne ha heq]
      exact he
    · rw [hall.eq_self, ← hsome.eq_self]
      exact he

/-- What a text becomes when one part after another is replaced. -/
def replacedInTurn (pairs : List (List Char × List Char)) (cs : List Char) : List Char :=
  pairs.foldl (fun cs pair ↦ replaceFrom pair.1 pair.2 0 cs) cs

theorem replacedInTurn_concat (pairs : List (List Char × List Char)) (old new cs : List Char) :
    replacedInTurn (pairs ++ [(old, new)]) cs =
      replaceFrom old new 0 (replacedInTurn pairs cs) := by
  rw [replacedInTurn, List.foldl_append, List.foldl_cons, List.foldl_nil]
  rfl

/-- A run replaces part after part as if all were replaced at once, exactly if no part occurs more
often when its turn comes than in the text at first, those apart that stand for themselves. -/
theorem substituted_replacedInTurn_iff (hs : Separate pairs) (cs : List Char) :
    (∀ front, front <+: pairs → Substituted front cs (replacedInTurn front cs)) ↔
      ∀ front old new, front ++ [(old, new)] <+: pairs →
        occurrences old (replacedInTurn front cs) = occurrences old cs ∨ new = old := by
  constructor
  · intro h front old new hp
    have hfront := h front ((List.prefix_append _ _).trans hp)
    rw [← hfront.replaceFrom_iff (hs.sublist hp.sublist), ← replacedInTurn_concat]
    exact h _ hp
  · intro h front
    induction front using List.reverseRecOn with
    | nil => exact fun _ ↦ substituted_nil cs
    | append_singleton front pair ih =>
      intro hp
      obtain ⟨old, new⟩ := pair
      have hfront := ih ((List.prefix_append _ _).trans hp)
      rw [replacedInTurn_concat, hfront.replaceFrom_iff (hs.sublist hp.sublist)]
      exact h front old new hp

end

end RpcForge.Text

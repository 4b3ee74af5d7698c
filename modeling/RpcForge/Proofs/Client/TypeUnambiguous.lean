import RpcForge.Proofs.Client.TypeGrammar

/-!
# One type for a text

No text spells two types. What is shown is a little more, so that it can be shown part by part: two
stretches that spell types at the beginning of the same text are the same stretch and spell the same
type, provided that only certain signs may follow them.
-/

namespace RpcForge.TypeGrammar

/-- What follows a stretch of text begins with one of some signs, if anything follows. -/
def Follows (signs rest : List Char) : Prop :=
  ∀ c, rest.head? = some c → c ∈ signs

/-- A stretch of less than a given length that is read as something in front of certain signs is no
longer and no shorter stretch, and is read as nothing else. -/
def UnambiguousBelow {α : Type} (n : Nat) (signs : List Char) (Reads : α → List Char → Prop) :
    Prop :=
  ∀ a b s t r r', Reads a s → Reads b t → s.length < n → Follows signs r → Follows signs r' →
    s ++ r = t ++ r' → a = b ∧ s = t ∧ r = r'

section Stretches

variable {α : Type} {n : Nat} {signs : List Char} {R : α → List Char → Prop}

private theorem Follows.mono {signs' rest : List Char} (hs : signs ⊆ signs')
    (h : Follows signs rest) :
    Follows signs' rest :=
  fun c hc ↦ hs (h c hc)

private theorem follows_nil (signs : List Char) : Follows signs [] := by
  intro c hc
  cases hc

private theorem follows_cons {c : Char} (hc : c ∈ signs) (rest : List Char) :
    Follows signs (c :: rest) := by
  intro d hd
  cases hd
  exact hc

private theorem UnambiguousBelow.mono {signs' : List Char} (hs : signs ⊆ signs')
    (h : UnambiguousBelow n signs' R) : UnambiguousBelow n signs R :=
  fun a b s t r r' ha hb hn hr hr' he ↦ h a b s t r r' ha hb hn (hr.mono hs) (hr'.mono hs) he

/-- The sign that closes a stretch belongs to what follows. -/
theorem UnambiguousBelow.closed (h : UnambiguousBelow n signs R) {c : Char} (hc : c ∈ signs)
    {a b : α} {s t r r' : List Char} (hs : R a s) (ht : R b t) (hn : s.length < n)
    (he : s ++ c :: r = t ++ c :: r') : a = b ∧ s = t ∧ r = r' := by
  obtain ⟨hab, hst, hr⟩ :=
    h _ _ _ _ _ _ hs ht hn (follows_cons hc r) (follows_cons hc r') he
  exact ⟨hab, hst, (List.cons.inj hr).2⟩

/-- Two longest runs of characters of a kind at the beginning of a text are the same. -/
private theorem run_unique {p : Char → Bool} {s t r r' : List Char} (hs : ∀ c ∈ s, p c = true)
    (ht : ∀ c ∈ t, p c = true) (hr : ∀ c, r.head? = some c → p c = false)
    (hr' : ∀ c, r'.head? = some c → p c = false) (he : s ++ r = t ++ r') : s = t ∧ r = r' := by
  induction s generalizing t with
  | nil =>
    cases t with
    | nil => exact ⟨rfl, he⟩
    | cons c t =>
      have hc := hr c (by rw [List.nil_append] at he; rw [he]; rfl)
      rw [ht c (.head _)] at hc
      cases hc
  | cons c s ih =>
    cases t with
    | nil =>
      have hc := hr' c (by rw [List.nil_append] at he; rw [← he]; rfl)
      rw [hs c (.head _)] at hc
      cases hc
    | cons d t =>
      rw [List.cons_append, List.cons_append, List.cons.injEq] at he
      obtain ⟨rfl, he⟩ := he
      obtain ⟨rfl, hr⟩ := ih (fun x hx ↦ hs x (.tail _ hx)) (fun x hx ↦ ht x (.tail _ hx)) he
      exact ⟨rfl, hr⟩

/-- Lists of elements are unambiguous if the elements are, and if no sign that may follow a list is
the one that stands between its elements. -/
private theorem Separated.unambiguousBelow {c : Char} {signs' : List Char} (hc : c ∉ signs)
    (h : UnambiguousBelow n (c :: signs) R) :
    UnambiguousBelow n signs (Separated (c :: signs') R) := by
  have hm : signs ⊆ c :: signs := List.subset_cons_self c signs
  have hf (rest : List Char) : Follows (c :: signs) (c :: signs' ++ rest) :=
    follows_cons (.head _) _
  intro as bs s t r r' hs
  induction hs generalizing bs t with
  | @one a s ha =>
    intro ht hn hr hr' he
    cases ht with
    | @one b t hb =>
      obtain ⟨rfl, rfl, rfl⟩ := h _ _ _ _ _ _ ha hb hn (hr.mono hm) (hr'.mono hm) he
      exact ⟨rfl, rfl, rfl⟩
    | @more b bs t rest hb _ =>
      rw [List.append_assoc, List.append_assoc] at he
      obtain ⟨-, -, rfl⟩ := h _ _ _ _ _ _ ha hb hn (hr.mono hm) (hf _) he
      exact absurd (hr c rfl) hc
  | @more a as s rest ha _ ih =>
    intro ht hn hr hr' he
    have hl : s.length < n := by
      rw [List.length_append] at hn
      omega
    rw [List.append_assoc, List.append_assoc] at he
    cases ht with
    | @one b t hb =>
      obtain ⟨-, -, rfl⟩ := h _ _ _ _ _ _ ha hb hl (hf _) (hr'.mono hm) he
      exact absurd (hr' c rfl) hc
    | @more b bs t rest' hb ht =>
      rw [List.append_assoc, List.append_assoc] at he
      obtain ⟨rfl, rfl, hrest⟩ := h _ _ _ _ _ _ ha hb hl (hf _) (hf _) he
      have hl' : rest.length < n := by
        simp only [List.length_append] at hn
        omega
      obtain ⟨rfl, rfl, rfl⟩ := ih _ _ ht hl' hr hr' (List.append_cancel_left hrest)
      exact ⟨rfl, rfl, rfl⟩

/-- The first element stands at the beginning of a list. -/
private theorem Separated.exists_first {sign : List Char} {as : List α} {s : List Char}
    (h : Separated sign R as s) : ∃ a t rest, R a t ∧ s = t ++ rest := by
  cases h with
  | @one a s ha => exact ⟨a, s, [], ha, (List.append_nil s).symm⟩
  | @more a as s rest ha _ => exact ⟨a, s, sign ++ rest, ha, rfl⟩

end Stretches

/-! ## Literals -/

private theorem shortEscapes_unique {e c d : Char} (hc : (e, c) ∈ shortEscapes)
    (hd : (e, d) ∈ shortEscapes) : c = d := by
  have h : ∀ p ∈ shortEscapes, ∀ q ∈ shortEscapes, p.1 = q.1 → p.2 = q.2 := by decide
  exact h _ hc _ hd rfl

private theorem ne_u_of_mem_shortEscapes {e c : Char} (h : (e, c) ∈ shortEscapes) : e ≠ 'u' := by
  have hu : ∀ p ∈ shortEscapes, p.1 ≠ 'u' := by decide
  exact hu _ h

/-- What a string holds ends at its closing quote. -/
private theorem Escaped.unique {content content' s t r r' : List Char} (hs : Escaped content s)
    (ht : Escaped content' t) (he : s ++ '"' :: r = t ++ '"' :: r') :
    content = content' ∧ s = t ∧ r = r' := by
  -- The first sign tells the rule that was used, or the second one behind a backslash, so both
  -- readings use the same rule and go on with the same rest.
  induction hs generalizing content' t with
  | nil =>
    cases ht with
    | nil => exact ⟨rfl, rfl, (List.cons.inj he).2⟩
    | plain hc _ =>
      obtain ⟨rfl, -⟩ := List.cons.inj he
      simp at hc
    | short _ _ => simp at he
    | code _ _ _ => simp at he
  | @plain c content s hc _ ih =>
    cases ht with
    | nil =>
      obtain ⟨rfl, -⟩ := List.cons.inj he
      simp at hc
    | plain _ ht =>
      obtain ⟨rfl, hrest⟩ := List.cons.inj he
      obtain ⟨rfl, rfl, rfl⟩ := ih ht hrest
      exact ⟨rfl, rfl, rfl⟩
    | short _ _ =>
      obtain ⟨rfl, -⟩ := List.cons.inj he
      simp at hc
    | code _ _ _ =>
      obtain ⟨rfl, -⟩ := List.cons.inj he
      simp at hc
  | @short e c content s hc _ ih =>
    cases ht with
    | nil => simp at he
    | plain hd _ =>
      obtain ⟨rfl, -⟩ := List.cons.inj he
      simp at hd
    | short hd ht =>
      simp only [List.cons_append, List.cons.injEq, true_and] at he
      obtain ⟨rfl, hrest⟩ := he
      obtain ⟨rfl, rfl, rfl⟩ := ih ht hrest
      exact ⟨by rw [shortEscapes_unique hc hd], rfl, rfl⟩
    | code _ _ _ =>
      simp only [List.cons_append, List.cons.injEq, true_and] at he
      exact absurd he.1 (ne_u_of_mem_shortEscapes hc)
  | @code c digits content s hl hv _ ih =>
    cases ht with
    | nil => simp at he
    | plain hd _ =>
      obtain ⟨rfl, -⟩ := List.cons.inj he
      simp at hd
    | short hd _ =>
      simp only [List.cons_append, List.cons.injEq, true_and] at he
      exact absurd he.1.symm (ne_u_of_mem_shortEscapes hd)
    | code hl' hv' ht =>
      simp only [List.cons_append, List.cons.injEq, true_and, List.append_assoc] at he
      obtain ⟨rfl, hrest⟩ := List.append_inj he (hl.trans hl'.symm)
      rw [hv, Option.some.injEq] at hv'
      obtain ⟨rfl, rfl, rfl⟩ := ih ht hrest
      exact ⟨by rw [Char.toNat_inj.mp hv'], rfl, rfl⟩

/-- Whether a character may stand in a literal other than a string. -/
def isUnquoted (c : Char) : Bool :=
  c != '"' && c != ']'

/-- The literal that a text without quotes spells. -/
def unquoted (text : List Char) : LiteralTree :=
  if text = "True".toList then .truth true
  else if text = "False".toList then .truth false
  else .numeral (String.ofList text)

private theorem IsNumeral.ne_nil {text : List Char} (h : IsNumeral text) : text ≠ [] := by
  obtain ⟨-, hw, -, -⟩ := h
  simp [hw.1]

theorem IsNumeral.isDigit_or_mem {text : List Char} (h : IsNumeral text) :
    ∀ c ∈ text, c.isDigit = true ∨ c ∈ ['-', '.', 'e', '+'] := by
  intro c hc
  obtain ⟨hs, hw, hf, hp⟩ := h
  simp only [List.mem_append] at hc
  rcases hc with ((hc | hc) | hc) | hc
  · rcases hs with rfl | rfl
    · cases hc
    · simp_all
  · exact .inl (hw.2 c hc)
  · rcases hf with rfl | ⟨ds, hd, rfl⟩
    · cases hc
    · rcases List.mem_cons.mp hc with rfl | hc
      · simp
      · exact .inl (hd.2 c hc)
  · rcases hp with rfl | ⟨s, ds, hs, hd, rfl⟩
    · cases hc
    · simp only [List.mem_cons] at hc
      rcases hc with rfl | rfl | hc
      · simp
      · rcases hs with rfl | rfl <;> simp
      · exact .inl (hd.2 c hc)

private theorem IsNumeral.isUnquoted {text : List Char} (h : IsNumeral text) :
    ∀ c ∈ text, isUnquoted c = true := by
  intro c hc
  rw [TypeGrammar.isUnquoted, Bool.and_eq_true, bne_iff_ne, bne_iff_ne]
  constructor
  · rintro rfl
    simpa using h.isDigit_or_mem _ hc
  · rintro rfl
    simpa using h.isDigit_or_mem _ hc

private theorem IsNumeral.unquoted_eq {text : List Char} (h : IsNumeral text) :
    unquoted text = .numeral (String.ofList text) := by
  rw [unquoted, if_neg, if_neg]
  · rintro rfl
    simpa using h.isDigit_or_mem 'F' (by simp)
  · rintro rfl
    simpa using h.isDigit_or_mem 'T' (by simp)

/-- A literal is a string or is told by its text alone. -/
private theorem ReadsLiteral.text_or_unquoted {v : LiteralTree} {s : List Char}
    (h : ReadsLiteral v s) :
    (∃ content t, v = .text (String.ofList content) ∧ Escaped content t ∧
      s = '"' :: (t ++ ['"'])) ∨
    (s ≠ [] ∧ (∀ c ∈ s, isUnquoted c = true) ∧ v = unquoted s) := by
  cases h with
  | yes => exact .inr ⟨by decide, List.all_eq_true.mp rfl, rfl⟩
  | no => exact .inr ⟨by decide, List.all_eq_true.mp rfl, rfl⟩
  | numeral h => exact .inr ⟨h.ne_nil, h.isUnquoted, h.unquoted_eq.symm⟩
  | text h => exact .inl ⟨_, _, rfl, h, rfl⟩

/-- What is not a string does not begin with a quote. -/
private theorem ne_cons_quote {s r rest : List Char} (hn : s ≠ [])
    (hs : ∀ c ∈ s, isUnquoted c = true) : s ++ r ≠ '"' :: rest := by
  cases s with
  | nil => exact absurd rfl hn
  | cons c s =>
    intro he
    have hc := hs c (.head _)
    rw [(List.cons.inj he).1] at hc
    cases hc

/-- A literal ends at the bracket behind it. -/
private theorem ReadsLiteral.unique {v w : LiteralTree} {s t r r' : List Char}
    (hs : ReadsLiteral v s) (ht : ReadsLiteral w t) (he : s ++ ']' :: r = t ++ ']' :: r') :
    v = w ∧ s = t ∧ r = r' := by
  have hb (rest : List Char) (c : Char) (hc : (']' :: rest).head? = some c) :
      isUnquoted c = false := by
    cases hc
    rfl
  rcases hs.text_or_unquoted with ⟨content, u, rfl, hu, rfl⟩ | ⟨hn, hc, rfl⟩
  · rcases ht.text_or_unquoted with ⟨content', u', rfl, hu', rfl⟩ | ⟨hn', hc', rfl⟩
    · simp only [List.cons_append, List.append_assoc, List.cons.injEq, true_and,
        List.nil_append] at he
      obtain ⟨rfl, rfl, hr⟩ := hu.unique hu' he
      exact ⟨rfl, rfl, (List.cons.inj hr).2⟩
    · exact absurd he.symm (ne_cons_quote hn' hc')
  · rcases ht.text_or_unquoted with ⟨content', u', rfl, hu', rfl⟩ | ⟨hn', hc', rfl⟩
    · exact absurd he (ne_cons_quote hn hc)
    · obtain ⟨rfl, hr⟩ := run_unique hc hc' (hb r) (hb r') he
      exact ⟨rfl, rfl, (List.cons.inj hr).2⟩

/-- Signs do not stand in names. -/
private theorem isKeyChar_eq_false {signs : List Char}
    (h : signs.all (!Wellformed.isKeyChar ·) = true) :
    ∀ c ∈ signs, Wellformed.isKeyChar c = false := by
  simpa using h

/-- A name ends where no character of a name follows. -/
private theorem IsName.unique {s t signs r r' : List Char} (hs : IsName s)
    (ht : ∀ c ∈ t, Wellformed.isKeyChar c = true)
    (hk : ∀ c ∈ signs, Wellformed.isKeyChar c = false) (hr : Follows signs r)
    (hr' : Follows signs r') (he : s ++ r = t ++ r') : s = t ∧ r = r' :=
  run_unique hs.2 ht (fun c hc ↦ hk c (hr c hc)) (fun c hc ↦ hk c (hr' c hc)) he

section Opened

variable {c : Char} {signs s t r r' : List Char}
  (hk : ∀ d ∈ c :: signs, Wellformed.isKeyChar d = false)

include hk

/-- A name is told apart from a name with a bracket behind it that no sign which may follow is. -/
private theorem IsName.ne_opened (hc : c ∉ signs) (hs : IsName s) (ht : IsName t)
    (hr : Follows signs r) :
    s ++ r ≠ t ++ c :: r' := by
  intro he
  have hm : signs ⊆ c :: signs := List.subset_cons_self c signs
  obtain ⟨-, rfl⟩ := hs.unique ht.2 hk (hr.mono hm) (follows_cons (.head _) r') he
  exact hc (hr c rfl)

/-- A name ends at the bracket behind it. -/
private theorem IsName.opened_unique (hs : IsName s) (ht : IsName t)
    (he : s ++ c :: r = t ++ c :: r') : s = t ∧ r = r' := by
  obtain ⟨rfl, hr⟩ :=
    hs.unique ht.2 hk (follows_cons (.head _) r) (follows_cons (.head _) r') he
  exact ⟨rfl, (List.cons.inj hr).2⟩

end Opened

/-! ## Python -/

namespace Python

/-- The signs that may follow a type. -/
def signs : List Char := [',', ']']

private theorem Head.isName_text (head : Head) : IsName head.text := by
  cases head <;> decide

private theorem Head.text_injective {head head' : Head} (h : head.text = head'.text) :
    head = head' := by
  revert h
  cases head <;> cases head' <;> decide

/-- A type begins with a character of a name. -/
private theorem Reads.exists_first {t : TypeTree} {s : List Char} (h : Reads t s) :
    ∃ c rest, s = c :: rest ∧ Wellformed.isKeyChar c = true := by
  have hn {text : List Char} (hn : IsName text) :
      ∃ c rest, text = c :: rest ∧ Wellformed.isKeyChar c = true := by
    obtain ⟨c, rest, rfl⟩ := List.exists_cons_of_ne_nil hn.1
    exact ⟨c, rest, rfl, hn.2 c (.head _)⟩
  cases h with
  | name h => exact hn h
  | @subscript head t inside h =>
    obtain ⟨c, rest, he, hc⟩ := hn (Head.isName_text head)
    rw [he]
    exact ⟨c, _, rfl, hc⟩

/-- Nothing in brackets is no list of types. -/
private theorem unit_ne_separated {ts : List TypeTree} {s r r' : List Char}
    (h : Separated comma Reads ts s) : '(' :: r ≠ s ++ r' := by
  obtain ⟨t, s, rest, ht, rfl⟩ := h.exists_first
  obtain ⟨c, s, rfl, hc⟩ := ht.exists_first
  intro he
  rw [← (List.cons.inj he).1] at hc
  cases hc

/-- What stands in brackets is unambiguous if shorter types are. -/
private theorem Inside.unique {n : Nat} (ih : UnambiguousBelow n signs Reads) {head : Head}
    {a b : TypeTree} {s t r r' : List Char} (hs : Inside head a s) (ht : Inside head b t)
    (hn : s.length < n) (he : s ++ ']' :: r = t ++ ']' :: r') : a = b ∧ s = t ∧ r = r' := by
  have hm : ']' ∈ signs := by decide
  have hl : UnambiguousBelow n [']'] (Separated comma Reads) :=
    Separated.unambiguousBelow (by decide) ih
  cases hs with
  | literal hs =>
    cases ht with
    | literal ht =>
      obtain ⟨rfl, hrest⟩ := hs.unique ht he
      exact ⟨rfl, hrest⟩
  | unit =>
    cases ht with
    | unit => exact ⟨rfl, rfl, by simpa using he⟩
    | tuple ht => exact absurd he (unit_ne_separated ht)
  | tuple hs =>
    cases ht with
    | unit => exact absurd he.symm (unit_ne_separated hs)
    | tuple ht =>
      obtain ⟨rfl, hrest⟩ := hl.closed (.head _) hs ht hn he
      exact ⟨rfl, hrest⟩
  | set hs =>
    cases ht with
    | set ht =>
      obtain ⟨rfl, hrest⟩ := ih.closed hm hs ht hn he
      exact ⟨rfl, hrest⟩
  | list hs =>
    cases ht with
    | list ht =>
      obtain ⟨rfl, hrest⟩ := ih.closed hm hs ht hn he
      exact ⟨rfl, hrest⟩
  | dict hs =>
    cases ht with
    | dict ht =>
      rw [List.append_assoc, List.append_assoc] at he
      rw [List.length_append] at hn
      obtain ⟨rfl, rfl, hrest⟩ := ih.closed hm hs ht (by omega) (List.append_cancel_left he)
      exact ⟨rfl, rfl, hrest⟩
  | union hs =>
    cases ht with
    | union ht =>
      obtain ⟨rfl, hrest⟩ := hl.closed (.head _) hs ht hn he
      exact ⟨rfl, hrest⟩
  | optional hs =>
    cases ht with
    | optional ht =>
      obtain ⟨rfl, hrest⟩ := ih.closed hm hs ht hn he
      exact ⟨rfl, hrest⟩

/-- Types of Python are unambiguous, by the length of the text. -/
private theorem unambiguousBelow (n : Nat) : UnambiguousBelow n signs Reads := by
  have hk : ∀ c ∈ '[' :: signs, Wellformed.isKeyChar c = false := isKeyChar_eq_false rfl
  have hm : signs ⊆ '[' :: signs := List.subset_cons_self _ _
  have hs : '[' ∉ signs := by decide
  induction n with
  | zero => exact fun _ _ _ _ _ _ _ _ hn ↦ absurd hn (Nat.not_lt_zero _)
  | succ n ih =>
    intro a b s t r r' ha hb' hn hr hr' he
    -- Whether a bracket stands behind the name tells a name alone from a name with arguments.
    cases ha with
    | name ha =>
      cases hb' with
      | name hb' =>
        obtain ⟨rfl, rfl⟩ := ha.unique hb'.2 hk (hr.mono hm) (hr'.mono hm) he
        exact ⟨rfl, rfl, rfl⟩
      | @subscript head _ inside hb' =>
        rw [List.append_assoc] at he
        exact absurd he (ha.ne_opened hk hs (Head.isName_text head) hr)
    | @subscript head _ inside ha =>
      rw [List.append_assoc] at he
      cases hb' with
      | name hb' => exact absurd he.symm (hb'.ne_opened hk hs (Head.isName_text head) hr')
      | @subscript head' _ inside' hb' =>
        rw [List.append_assoc] at he
        obtain ⟨hh, hrest⟩ := (Head.isName_text head).opened_unique hk (Head.isName_text head') he
        obtain rfl := Head.text_injective hh
        have hi : inside ++ ']' :: r = inside' ++ ']' :: r' := by simpa using hrest
        have hl : inside.length < n := by
          simp only [List.length_append, List.length_cons] at hn
          omega
        obtain ⟨rfl, rfl, rfl⟩ := ha.unique ih hb' hl hi
        exact ⟨rfl, rfl, rfl⟩

end Python

/-! ## TypeScript -/

namespace TypeScript

/-- The signs that may follow a type. -/
def signs : List Char := [',', ']', '>']

/-- The signs that may follow an alternative. -/
def alternativeSigns : List Char := ' ' :: signs

/-- The signs that may follow a type to which brackets may be added. -/
def primarySigns : List Char := '[' :: alternativeSigns

private theorem isKeyChar_primarySigns :
    ∀ c ∈ '<' :: primarySigns, Wellformed.isKeyChar c = false :=
  isKeyChar_eq_false rfl

private theorem isName_objectName : IsName objectName := by
  decide

private theorem Head.isName_text (head : Head) : IsName head.text := by
  cases head <;> decide

private theorem Head.text_injective {head head' : Head} (h : head.text = head'.text) :
    head = head' := by
  revert h
  cases head <;> cases head' <;> decide

/-- A type begins with a character of a name or with a bracket. -/
private theorem Primary.exists_first {t : TypeTree} {s : List Char} (h : Primary t s) :
    ∃ c rest, s = c :: rest ∧ c ≠ ']' := by
  have hn {text : List Char} (hn : IsName text) : ∃ c rest, text = c :: rest ∧ c ≠ ']' := by
    obtain ⟨c, rest, rfl⟩ := List.exists_cons_of_ne_nil hn.1
    refine ⟨c, rest, rfl, ?_⟩
    rintro rfl
    cases hn.2 _ (.head _)
  cases h with
  | name h _ => exact hn h
  | object => exact hn isName_objectName
  | unit => exact ⟨'[', _, rfl, by decide⟩
  | tuple _ => exact ⟨'[', _, rfl, by decide⟩
  | @generic head t inside h =>
    obtain ⟨c, rest, he, hc⟩ := hn (Head.isName_text head)
    rw [he]
    exact ⟨c, _, rfl, hc⟩

private theorem Reads.exists_first {t : TypeTree} {s : List Char} (h : Reads t s) :
    ∃ c rest, s = c :: rest ∧ c ≠ ']' := by
  obtain ⟨h⟩ := h
  obtain ⟨_, _, _, ⟨hp, n⟩, rfl⟩ := h.exists_first
  obtain ⟨c, rest, rfl, hc⟩ := hp.exists_first
  exact ⟨c, _, rfl, hc⟩

/-- Nothing in brackets is no list of types. -/
private theorem unit_ne_separated {ts : List TypeTree} {s r r' : List Char}
    (h : Separated comma Reads ts s) : ']' :: r ≠ s ++ r' := by
  obtain ⟨t, s, rest, ht, rfl⟩ := h.exists_first
  obtain ⟨c, s, rfl, hc⟩ := ht.exists_first
  intro he
  exact hc (List.cons.inj he).1.symm

/-- Arguments of a name are unambiguous if shorter types are. -/
private theorem Arguments.unique {n : Nat} (ih : UnambiguousBelow n signs Reads) {head : Head}
    {a b : TypeTree} {s t r r' : List Char} (hs : Arguments head a s) (ht : Arguments head b t)
    (hn : s.length < n) (he : s ++ '>' :: r = t ++ '>' :: r') : a = b ∧ s = t ∧ r = r' := by
  have hm : '>' ∈ signs := by decide
  cases hs with
  | array hs =>
    cases ht with
    | array ht =>
      obtain ⟨rfl, hrest⟩ := ih.closed hm hs ht hn he
      exact ⟨rfl, hrest⟩
  | set hs =>
    cases ht with
    | set ht =>
      obtain ⟨rfl, hrest⟩ := ih.closed hm hs ht hn he
      exact ⟨rfl, hrest⟩
  | record hs =>
    cases ht with
    | record ht =>
      rw [List.append_assoc, List.append_assoc] at he
      rw [List.length_append] at hn
      obtain ⟨rfl, rfl, hrest⟩ := ih.closed hm hs ht (by omega) (List.append_cancel_left he)
      exact ⟨rfl, rfl, hrest⟩

/-- A text that begins with a bracket does not begin with a name. -/
private theorem ne_cons_bracket {s r rest : List Char} (hs : IsName s) : s ++ r ≠ '[' :: rest := by
  obtain ⟨c, s, rfl⟩ := List.exists_cons_of_ne_nil hs.1
  intro he
  have hc := hs.2 c (.head _)
  rw [(List.cons.inj he).1] at hc
  cases hc

/-- What a type begins with: a name, alone or with arguments, or a tuple. -/
private theorem Primary.cases_name {t : TypeTree} {s : List Char} (h : Primary t s) :
    (IsName s ∧ t = if s = objectName then .map (.any .typeScript) else named .typeScript s) ∨
    (∃ head inside, Arguments head t inside ∧ s = head.text ++ '<' :: (inside ++ ['>'])) ∨
    (∃ inside ts, t = .tuple ts ∧ (inside = [] ∧ ts = [] ∨ Separated comma Reads ts inside) ∧
      s = '[' :: (inside ++ [']'])) := by
  cases h with
  | name h ho => exact .inl ⟨h, (if_neg ho).symm⟩
  | object => exact .inl ⟨isName_objectName, (if_pos rfl).symm⟩
  | unit => exact .inr (.inr ⟨[], [], rfl, .inl ⟨rfl, rfl⟩, rfl⟩)
  | tuple h => exact .inr (.inr ⟨_, _, rfl, .inr h, rfl⟩)
  | generic h => exact .inr (.inl ⟨_, _, h, rfl⟩)

/-- What stands between the brackets of tuples is unambiguous if shorter types are. -/
private theorem tuple_unique {n : Nat} (ih : UnambiguousBelow n signs Reads) {as bs : List TypeTree}
    {s t r r' : List Char} (hs : s = [] ∧ as = [] ∨ Separated comma Reads as s)
    (ht : t = [] ∧ bs = [] ∨ Separated comma Reads bs t) (hn : s.length < n)
    (he : s ++ ']' :: r = t ++ ']' :: r') : as = bs ∧ s = t ∧ r = r' := by
  have hl : UnambiguousBelow n [']'] (Separated comma Reads) :=
    Separated.unambiguousBelow (by decide) (ih.mono (by decide))
  rcases hs with ⟨rfl, rfl⟩ | hs
  · rcases ht with ⟨rfl, rfl⟩ | ht
    · exact ⟨rfl, rfl, (List.cons.inj he).2⟩
    · exact absurd he (unit_ne_separated ht)
  · rcases ht with ⟨rfl, rfl⟩ | ht
    · exact absurd he.symm (unit_ne_separated hs)
    · exact hl.closed (.head _) hs ht hn he

/-- Types without brackets and bars around them are unambiguous if shorter types are. -/
private theorem Primary.unambiguousBelow {n : Nat} (ih : UnambiguousBelow n signs Reads) :
    UnambiguousBelow (n + 1) primarySigns Primary := by
  have hk := isKeyChar_primarySigns
  have hm : primarySigns ⊆ '<' :: primarySigns := List.subset_cons_self _ _
  have hna : '<' ∉ primarySigns := by decide
  intro a b s t r r' hs ht hn hr hr' he
  rcases hs.cases_name with ⟨h, rfl⟩ | ⟨head, inside, h, rfl⟩ | ⟨inside, ts, rfl, h, rfl⟩
  · rcases ht.cases_name with ⟨h', rfl⟩ | ⟨head', inside', h', rfl⟩ | ⟨inside', ts', rfl, h', rfl⟩
    · obtain ⟨rfl, rfl⟩ := h.unique h'.2 hk (hr.mono hm) (hr'.mono hm) he
      exact ⟨rfl, rfl, rfl⟩
    · rw [List.append_assoc] at he
      exact absurd he (h.ne_opened hk hna (Head.isName_text head') hr)
    · exact absurd he (ne_cons_bracket h)
  · rw [List.append_assoc] at he
    rcases ht.cases_name with ⟨h', rfl⟩ | ⟨head', inside', h', rfl⟩ | ⟨inside', ts', rfl, h', rfl⟩
    · exact absurd he.symm (h'.ne_opened hk hna (Head.isName_text head) hr')
    · rw [List.append_assoc] at he
      obtain ⟨hh, hrest⟩ := (Head.isName_text head).opened_unique hk (Head.isName_text head') he
      obtain rfl := Head.text_injective hh
      have hi : inside ++ '>' :: r = inside' ++ '>' :: r' := by simpa using hrest
      have hl : inside.length < n := by
        simp only [List.length_append, List.length_cons] at hn
        omega
      obtain ⟨rfl, rfl, rfl⟩ := h.unique ih h' hl hi
      exact ⟨rfl, rfl, rfl⟩
    · exact absurd he (ne_cons_bracket (Head.isName_text head))
  · rcases ht.cases_name with ⟨h', rfl⟩ | ⟨head', inside', h', rfl⟩ | ⟨inside', ts', rfl, h', rfl⟩
    · exact absurd he.symm (ne_cons_bracket h')
    · rw [List.append_assoc] at he
      exact absurd he.symm (ne_cons_bracket (Head.isName_text head'))
    · have hi : inside ++ ']' :: r = inside' ++ ']' :: r' := by simpa using he
      have hl : inside.length < n := by
        simp only [List.length_append, List.length_cons] at hn
        omega
      obtain ⟨rfl, rfl, rfl⟩ := tuple_unique ih h h' hl hi
      exact ⟨rfl, rfl, rfl⟩

private theorem brackets_succ (n : Nat) : brackets (n + 1) = '[' :: ']' :: brackets n := by
  rw [brackets, List.replicate_succ, List.flatten_cons]
  rfl

/-- How often brackets stand behind a type can be read off the text. -/
private theorem brackets_unique {n m : Nat} {r r' : List Char} (hr : Follows alternativeSigns r)
    (hr' : Follows alternativeSigns r') (he : brackets n ++ r = brackets m ++ r') :
    n = m ∧ r = r' := by
  have hb : '[' ∉ alternativeSigns := by decide
  induction n generalizing m with
  | zero =>
    cases m with
    | zero => exact ⟨rfl, he⟩
    | succ m =>
      have hr'' : r = brackets (m + 1) ++ r' := he
      rw [hr'', brackets_succ] at hr
      exact absurd (hr _ rfl) hb
  | succ n ih =>
    cases m with
    | zero =>
      have hr'' : r' = brackets (n + 1) ++ r := he.symm
      rw [hr'', brackets_succ] at hr'
      exact absurd (hr' _ rfl) hb
    | succ m =>
      rw [brackets_succ, brackets_succ] at he
      obtain ⟨rfl, rfl⟩ := ih (by simpa using he)
      exact ⟨rfl, rfl⟩

/-- Alternatives are unambiguous if types without brackets behind them are. -/
private theorem Suffixed.unambiguousBelow {n : Nat} (h : UnambiguousBelow n primarySigns Primary) :
    UnambiguousBelow n alternativeSigns Suffixed := by
  have hf {k : Nat} {rest : List Char} (hr : Follows alternativeSigns rest) :
      Follows primarySigns (brackets k ++ rest) := by
    cases k with
    | zero => exact hr.mono (List.subset_cons_self _ _)
    | succ k =>
      rw [brackets_succ]
      exact follows_cons (.head _) _
  intro a b s t r r' hs ht hn hr hr' he
  obtain ⟨hs, k⟩ := hs
  obtain ⟨ht, k'⟩ := ht
  rw [List.append_assoc, List.append_assoc] at he
  rw [List.length_append] at hn
  obtain ⟨rfl, rfl, hrest⟩ := h _ _ _ _ _ _ hs ht (by omega) (hf hr) (hf hr') he
  obtain ⟨rfl, rfl⟩ := brackets_unique hr hr' hrest
  exact ⟨rfl, rfl, rfl⟩

/-- Types of TypeScript are unambiguous, by the length of the text. -/
private theorem unambiguousBelow (n : Nat) : UnambiguousBelow n signs Reads := by
  induction n with
  | zero => exact fun _ _ _ _ _ _ _ _ hn ↦ absurd hn (Nat.not_lt_zero _)
  | succ n ih =>
    have hp := Primary.unambiguousBelow ih
    have hs : UnambiguousBelow (n + 1) signs (Separated bar Suffixed) :=
      Separated.unambiguousBelow (by decide) (Suffixed.unambiguousBelow hp)
    intro a b s t r r' ha hb hn hr hr' he
    obtain ⟨ha⟩ := ha
    obtain ⟨hb⟩ := hb
    obtain ⟨rfl, rfl, rfl⟩ := hs _ _ _ _ _ _ ha hb hn hr hr' he
    exact ⟨rfl, rfl, rfl⟩

end TypeScript

/-- No text spells two types of a language. -/
theorem Reads.unique {l : Language} {a b : TypeTree} {s : List Char} (ha : Reads l a s)
    (hb : Reads l b s) : a = b := by
  cases l with
  | python =>
    exact (Python.unambiguousBelow (s.length + 1) _ _ _ _ _ _ ha hb (Nat.lt_succ_self _)
      (follows_nil _) (follows_nil _) rfl).1
  | typeScript =>
    exact (TypeScript.unambiguousBelow (s.length + 1) _ _ _ _ _ _ ha hb (Nat.lt_succ_self _)
      (follows_nil _) (follows_nil _) rfl).1

end RpcForge.TypeGrammar

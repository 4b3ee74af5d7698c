import RpcForge.Package.Comment
import RpcForge.Proofs.Code.Writer
import RpcForge.Proofs.Text.Replace

/-!
# Comments in code

A comment is a line that opens it, or all from a line that only opens it to the next one that only
closes it. Whatever is written of it, it ends where the two characters that close a comment occur
for the first time.
-/

namespace RpcForge

/-- A comment ends where it closes: the characters that close it are its last two and do not occur
before. -/
def Comment.ClosesOnce (comment : String) : Prop :=
  ∃ front, comment = front ++ "*/" ∧ Text.hasPart (front ++ "*") "*/" = false

namespace Code

open CodeWriter Text

/-! ## Finding comments -/

/-- Whether a comment of several lines begins. -/
def isOpening : Code → Bool
  | .line t => t == "/**"
  | _ => false

/-- Whether a comment of several lines ends. -/
def isClosing : Code → Bool
  | .line t => t == " */"
  | _ => false

mutual

/-- The comments that are written for a piece of code, as they are written. -/
def commentsIn (w : CodeWriter) : Code → List String
  | .line t => if startsWith t "/**" then [trim ((w.line t).since w)] else []
  | .nested body => comments none w.deeper body
  | .braced header body => comments none (w.line (header ++ " \x7b")).deeper body
  | .suite header body => comments none (w.line (header ++ ":")).deeper body
  | .text _ => []
  | .blank => []
  | .hold => []
  | .release => []
  | .doc _ _ => []

/-- The comments that are written for pieces of code one after the other. A comment of several lines
may have begun where the writer was in an earlier state. -/
def comments (opened : Option CodeWriter) (w : CodeWriter) : List Code → List String
  | [] => (opened.map fun start ↦ trim (w.since start)).toList
  | code :: rest =>
    match opened with
    | none =>
      if code.isOpening then comments (some w) (run w code) rest
      else commentsIn w code ++ comments none (run w code) rest
    | some start =>
      if code.isClosing then trim ((run w code).since start) :: comments none (run w code) rest
      else comments opened (run w code) rest

end

/-- Of the comments in code, all end where they close exactly if something holds, whatever is
written before and after the code. -/
def ClosesIff (code : List Code) (p : Prop) : Prop :=
  ∀ (w : CodeWriter) (rest : List Code), w.IndentsByBlanks → ∃ found,
    comments none w (code ++ rest) = found ++ comments none (runAll w code) rest ∧
      ((∀ comment ∈ found, Comment.ClosesOnce comment) ↔ p)

theorem closesIff_nil : ClosesIff [] True := fun _ _ _ ↦ ⟨[], rfl, by simp⟩

theorem ClosesIff.append {code rest : List Code} {p q : Prop} (h : ClosesIff code p)
    (h' : ClosesIff rest q) : ClosesIff (code ++ rest) (p ∧ q) := by
  intro w behind hw
  obtain ⟨found, he, hp⟩ := h w (rest ++ behind) hw
  obtain ⟨found', he', hq⟩ := h' (runAll w code) behind
    ((continues_runAll w code).indentsByBlanks hw)
  refine ⟨found ++ found', ?_, ?_⟩
  · rw [List.append_assoc, he, he', List.append_assoc, runAll_append]
  · rw [List.forall_mem_append, hp, hq]

theorem ClosesIff.congr {code : List Code} {p q : Prop} (h : ClosesIff code p) (hpq : p ↔ q) :
    ClosesIff code q := by
  intro w rest hw
  obtain ⟨found, he, hp⟩ := h w rest hw
  exact ⟨found, he, hp.trans hpq⟩

/-- Code is written for items. -/
theorem closesIff_flatMap {α : Type} {f : α → List Code} {p : α → Prop}
    (h : ∀ a, ClosesIff (f a) (p a)) (as : List α) : ClosesIff (as.flatMap f) (∀ a ∈ as, p a) := by
  induction as with
  | nil => exact closesIff_nil.congr (by simp)
  | cons a as ih =>
    rw [List.flatMap_cons]
    exact ((h a).append ih).congr (by simp)

theorem ClosesIff.comments {code : List Code} {p : Prop} (h : ClosesIff code p) {w : CodeWriter}
    (hw : w.IndentsByBlanks) :
    (∀ comment ∈ comments none w code, Comment.ClosesOnce comment) ↔ p := by
  obtain ⟨found, he, hp⟩ := h w [] hw
  rw [List.append_nil] at he
  rw [he, Code.comments, Option.map_none, Option.toList_none, List.append_nil, hp]

private theorem closesIff_singleton {code : Code} {p : Prop} (ho : code.isOpening = false)
    (h : ∀ w : CodeWriter, w.IndentsByBlanks →
      ((∀ comment ∈ commentsIn w code, Comment.ClosesOnce comment) ↔ p)) :
    ClosesIff [code] p := by
  intro w rest hw
  refine ⟨commentsIn w code, ?_, h w hw⟩
  rw [List.singleton_append, Code.comments]
  simp only [ho, Bool.false_eq_true, if_false]
  rfl

/-- A comment is found in code, whatever is written before and after the code. -/
def Finds (code : List Code) (comment : String) : Prop :=
  ∀ (w : CodeWriter) (rest : List Code), w.IndentsByBlanks →
    comment ∈ comments none w (code ++ rest)

theorem Finds.append {code : List Code} {comment : String} (h : Finds code comment)
    (rest : List Code) : Finds (code ++ rest) comment := by
  intro w behind hw
  rw [List.append_assoc]
  exact h w (rest ++ behind) hw

theorem Finds.behind {code rest : List Code} {comment : String} (h : Finds rest comment)
    {p : Prop} (hp : ClosesIff code p) : Finds (code ++ rest) comment := by
  intro w behind hw
  obtain ⟨found, he, -⟩ := hp w (rest ++ behind) hw
  rw [List.append_assoc, he]
  exact List.mem_append_right _ (h _ behind ((continues_runAll w code).indentsByBlanks hw))

/-- Code in which all comments end where they close. -/
def Closes (code : List Code) : Prop :=
  ClosesIff code True

theorem Closes.append {code rest : List Code} (h : Closes code) (h' : Closes rest) :
    Closes (code ++ rest) :=
  (ClosesIff.append h h').congr (by simp)

theorem Closes.cons {code : Code} {rest : List Code} (h : Closes [code]) (h' : Closes rest) :
    Closes (code :: rest) :=
  Closes.append h h'

theorem closes_flatMap {α : Type} {f : α → List Code} {as : List α}
    (h : ∀ a ∈ as, Closes (f a)) : Closes (as.flatMap f) := by
  induction as with
  | nil => exact closesIff_nil
  | cons a as ih =>
    rw [List.flatMap_cons]
    exact (h a (.head _)).append (ih fun b hb ↦ h b (.tail _ hb))

theorem closes_blank : Closes [.blank] :=
  closesIff_singleton rfl fun _ _ ↦ iff_of_true (List.forall_mem_nil _) trivial

theorem closes_text (t : String) : Closes [.text t] :=
  closesIff_singleton rfl fun _ _ ↦ iff_of_true (List.forall_mem_nil _) trivial

theorem closes_nested {body : List Code} (h : Closes body) : Closes [.nested body] :=
  closesIff_singleton rfl fun _ hw ↦ h.comments hw

theorem closes_braced (header : String) {body : List Code} (h : Closes body) :
    Closes [.braced header body] :=
  closesIff_singleton rfl fun w hw ↦ h.comments ((continues_line w _).indentsByBlanks hw)

/-- Whether a text begins with another character than those that begin a comment. -/
def startsPlain (t : String) : Bool :=
  t.toList.head?.any (· != '/')

theorem startsPlain_append {front : String} (h : startsPlain front = true) (back : String) :
    startsPlain (front ++ back) = true := by
  rw [startsPlain] at h ⊢
  rw [String.toList_append, List.head?_append]
  cases hh : front.toList.head? with
  | none =>
    rw [hh] at h
    cases h
  | some c =>
    rw [hh] at h
    exact h

/-- A line that does not begin like a comment is none. -/
theorem closes_line {t : String} (h : startsPlain t = true) : Closes [.line t] := by
  have hs : startsWith t "/**" = false := by
    rw [Bool.eq_false_iff, ne_eq, startsWith_iff]
    rintro ⟨rest, hr⟩
    rw [startsPlain, ← hr] at h
    cases h
  refine closesIff_singleton ?_ fun w _ ↦ by simp [commentsIn, hs]
  rw [isOpening, beq_eq_false_iff_ne]
  rintro rfl
  cases hs

theorem closes_lines {α : Type} {f : α → String} {as : List α}
    (h : ∀ a ∈ as, startsPlain (f a) = true) : Closes (as.map fun a ↦ .line (f a)) := by
  rw [List.map_eq_flatMap]
  exact closes_flatMap fun a ha ↦ closes_line (h a ha)

/-! ## Comments in the text -/

mutual

/-- Comments are parts of the text. -/
private theorem infix_of_mem_commentsIn (w : CodeWriter) :
    ∀ code : Code, ∀ comment ∈ commentsIn w code,
      comment.toList <:+: (run w code).text.toList
  | .line t => by
    intro comment h
    rw [commentsIn] at h
    split at h
    · obtain rfl := List.mem_singleton.mp h
      exact infix_since _ _
    · cases h
  | .nested body => infix_of_mem_comments none w.deeper body
  | .braced header body => fun comment h ↦
    (continues_line _ "\x7d").infix_text
      (infix_of_mem_comments none (w.line (header ++ " \x7b")).deeper body comment h)
  | .suite header body => infix_of_mem_comments none (w.line (header ++ ":")).deeper body
  | .text _ => List.forall_mem_nil _
  | .blank => List.forall_mem_nil _
  | .hold => List.forall_mem_nil _
  | .release => List.forall_mem_nil _
  | .doc _ _ => List.forall_mem_nil _

private theorem infix_of_mem_comments (opened : Option CodeWriter) (w : CodeWriter) :
    ∀ code : List Code, ∀ comment ∈ comments opened w code,
      comment.toList <:+: (runAll w code).text.toList
  | [] => by
    intro comment h
    rw [comments, Option.mem_toList] at h
    obtain ⟨start, -, rfl⟩ := Option.map_eq_some_iff.mp h
    exact infix_since _ _
  | code :: rest => by
    intro comment h
    have ih (opened : Option CodeWriter) := infix_of_mem_comments opened (run w code) rest comment
    have hc := continues_runAll (run w code) rest
    cases opened with
    | none =>
      rw [comments] at h
      split at h
      · exact ih _ h
      · rcases List.mem_append.mp h with h | h
        · exact hc.infix_text (infix_of_mem_commentsIn w code comment h)
        · exact ih _ h
    | some start =>
      rw [comments] at h
      split at h
      · rcases List.mem_cons.mp h with rfl | h
        · exact hc.infix_text (infix_since _ _)
        · exact ih _ h
      · exact ih _ h

end

/-- The comments in code are parts of its text. -/
theorem hasPart_render {unit : String} {code : List Code} {comment : String}
    (h : comment ∈ comments none { unit := unit } code) :
    hasPart (render unit code) comment = true := by
  rw [hasPart_iff]
  exact infix_of_mem_comments none _ code comment h

/-! ## Where comments end -/

theorem closesOnce_ofList_iff (front : List Char) :
    Comment.ClosesOnce (String.ofList (front ++ ['*', '/'])) ↔
      occursIn ['*', '/'] (front ++ ['*']) = false := by
  constructor
  · rintro ⟨text, ht, h⟩
    have he : front ++ ['*', '/'] = text.toList ++ ['*', '/'] := by
      rw [← String.toList_inj, String.toList_ofList, String.toList_append] at ht
      exact ht
    rw [hasPart, String.toList_append] at h
    rw [List.append_cancel_right he]
    exact h
  · intro h
    refine ⟨String.ofList front, String.ofList_append, ?_⟩
    rw [hasPart, String.toList_append, String.toList_ofList (l := front)]
    exact h

/-- The characters that close a comment are written as they stand. -/
theorem indented_comment (indentation front : List Char) :
    indented indentation false ('/' :: front ++ ['*', '/']) =
      '/' :: indented indentation false front ++
        (if startsLine false front then indentation else []) ++ ['*', '/'] := by
  have hs : '/' ≠ '\n' := by decide
  have ha : '*' ≠ '\n' := by decide
  rw [List.cons_append, indented_false_cons_of_ne hs, indented_append, indented_cons_of_ne ha,
    indented_false_cons_of_ne hs]
  simp [indented]

private theorem isTrimmed_indented_comment (indentation front : List Char) :
    IsTrimmed (indented indentation false ('/' :: front ++ ['*', '/'])) := by
  rw [indented_comment]
  refine ⟨fun c hc ↦ ?_, fun c hc ↦ ?_⟩
  · obtain rfl := Option.some.inj hc
    decide
  · rw [List.getLast?_append] at hc
    obtain rfl := Option.some.inj hc
    decide

/-- What begins with a slash is written behind the margin of its first line. -/
theorem since_comment (w : CodeWriter) (front : List Char) :
    since (('/' :: front ++ ['*', '/'] ++ ['\n']).foldl put w) w =
      String.ofList ((if w.atLineStart then w.indentation else []) ++
        indented w.indentation false ('/' :: front ++ ['*', '/']) ++ ['\n']) := by
  have hs : '/' ≠ '\n' := by decide
  rw [since_foldl_put, indented_append, indented_lineFeed_cons, List.cons_append,
    indented_cons_of_ne hs, indented_false_cons_of_ne hs]
  rfl

/-- What begins with a slash and ends with the characters that close a comment is a comment that
ends where it closes if these characters do not occur before. Indentation does not matter. -/
theorem closesOnce_indented_iff {w : CodeWriter} (hw : w.IndentsByBlanks) (front : List Char) :
    Comment.ClosesOnce
        (String.ofList (indented w.indentation false ('/' :: front ++ ['*', '/']))) ↔
      occursIn ['*', '/'] ('/' :: front ++ ['*']) = false := by
  have hs : '/' ≠ '\n' := by decide
  have ha : '*' ≠ '\n' := by decide
  have hf : '/' :: indented w.indentation false front ++
      (if startsLine false front then w.indentation else []) ++ ['*'] =
        indented w.indentation false ('/' :: front ++ ['*']) := by
    have hc : '/' :: front ++ ['*'] = '/' :: (front ++ ['*']) := rfl
    rw [hc, indented_false_cons_of_ne hs, indented_append, indented_cons_of_ne ha]
    simp [indented]
  have hn : '\n' ∉ w.indentation := fun hc ↦ absurd (hw.eq_of_mem hc) (by decide)
  rw [indented_comment, closesOnce_ofList_iff, hf,
    occursIn_indented (by simp) (by decide) hn fun c hc ↦ by rw [hw.eq_of_mem hc]; decide]

/-- Neither the margin nor the line feed belongs to a comment. -/
private theorem trim_since_comment {w : CodeWriter} (hw : w.IndentsByBlanks) (front : List Char) :
    trim (since (('/' :: front ++ ['*', '/'] ++ ['\n']).foldl put w) w) =
      String.ofList (indented w.indentation false ('/' :: front ++ ['*', '/'])) := by
  rw [since_comment, trim_eq, String.toList_ofList,
    trimChars_append (hw.isBlank_margin _) (isTrimmed_indented_comment _ _)
      (List.forall_mem_singleton.mpr (by decide))]

private theorem isOpening_comment (content : String) :
    isOpening (.line ("/** " ++ content ++ " */")) = false := by
  rw [isOpening, beq_eq_false_iff_ne]
  intro h
  simpa using congrArg String.toList h

private theorem commentsIn_comment (w : CodeWriter) (content : String) :
    commentsIn w (.line ("/** " ++ content ++ " */")) =
      [trim ((w.line ("/** " ++ content ++ " */")).since w)] := by
  have hs : startsWith ("/** " ++ content ++ " */") "/**" = true := by
    rw [startsWith_iff]
    exact ⟨' ' :: (content.toList ++ [' ', '*', '/']), by simp⟩
  rw [commentsIn, if_pos hs]

/-- A comment of one line is written as one text. -/
theorem line_comment (w : CodeWriter) (content : String) :
    w.line ("/** " ++ content ++ " */") =
      ('/' :: (['*', '*', ' '] ++ content.toList ++ [' ']) ++ ['*', '/'] ++
        ['\n']).foldl put w := by
  rw [line_eq]
  refine congrArg (List.foldl put w) ?_
  simp

theorem occursIn_comment (content : String) :
    occursIn ['*', '/'] ('/' :: (['*', '*', ' '] ++ content.toList ++ [' ']) ++ ['*']) =
      hasPart content "*/" := by
  have ho : '/' :: (['*', '*', ' '] ++ content.toList ++ [' ']) ++ ['*'] =
      ['/', '*', '*'] ++ ' ' :: (content.toList ++ ' ' :: ['*']) := by simp
  have hb : ' ' ∉ ['*', '/'] := by decide
  have hf : occursIn ['*', '/'] ['/', '*', '*'] = false := by decide
  have hl : occursIn ['*', '/'] ['*'] = false := by decide
  rw [ho, occursIn_append_cons hb, occursIn_append_cons hb, hf, hl, Bool.false_or, Bool.or_false]
  rfl

/-- A comment of one line ends where it closes if what it says does not close it. -/
theorem closesIff_comment (content : String) :
    ClosesIff [.line ("/** " ++ content ++ " */")] (hasPart content "*/" = false) := by
  refine closesIff_singleton (isOpening_comment content) fun w hw ↦ ?_
  rw [commentsIn_comment, List.forall_mem_singleton, line_comment, trim_since_comment hw,
    closesOnce_indented_iff hw, occursIn_comment]

/-- A comment of one line is found as it stands. -/
theorem finds_comment {content : String} (h : '\n' ∉ content.toList) :
    Finds [.line ("/** " ++ content ++ " */")] ("/** " ++ content ++ " */") := by
  intro w rest hw
  have hn : '\n' ∉ '/' :: (['*', '*', ' '] ++ content.toList ++ [' ']) ++ ['*', '/'] := by
    simp [h]
  have he : trim ((w.line ("/** " ++ content ++ " */")).since w) = "/** " ++ content ++ " */" := by
    rw [line_comment, trim_since_comment hw, indented_false_eq hn]
    simp [← String.toList_inj]
  rw [List.singleton_append, comments]
  simp only [isOpening_comment, Bool.false_eq_true, if_false, commentsIn_comment, he]
  exact List.mem_append_left _ (.head _)

/-- Lines that do not close a comment do not close it together. -/
private theorem occursIn_flatMap_lines {ts : List String}
    (h : ∀ t ∈ ts, occursIn ['*', '/'] t.toList = false) :
    occursIn ['*', '/'] (ts.flatMap fun t ↦ t.toList ++ ['\n']) = false := by
  induction ts with
  | nil => rfl
  | cons t ts ih =>
    rw [List.flatMap_cons, List.append_assoc, List.singleton_append,
      occursIn_append_cons (by decide), h t (.head _), ih fun u hu ↦ h u (.tail _ hu)]
    rfl

private theorem occursIn_docLines {content : String} (h : hasPart content "*/" = false) :
    ∀ t ∈ docLines " *" content, occursIn ['*', '/'] t.toList = false := by
  intro t ht
  obtain ⟨line, hl, rfl⟩ := List.mem_map.mp ht
  split
  · decide
  · have hi : (trimEnd line).toList <:+: content.toList := by
      obtain ⟨cs, hc, rfl⟩ := List.mem_map.mp hl
      rw [trimEnd, String.toList_ofList, String.toList_ofList]
      have hp : dropBlanksRight cs <+: cs := List.rdropWhile_prefix isBlank cs
      exact hp.isInfix.trans (infix_of_mem_linesFrom hc)
    have hs : (" *" ++ " " ++ trimEnd line).toList =
        [' ', '*'] ++ ' ' :: (trimEnd line).toList := by
      simp
    have ho : occursIn ['*', '/'] (trimEnd line).toList = false :=
      occursIn_eq_false_of_isInfix hi h
    rw [hs, occursIn_append_cons (by decide), ho]
    decide

/-- A comment of several lines is written as one text. -/
theorem runAll_doc (w : CodeWriter) (content : String) :
    runAll w [.line "/**", .doc " *" content, .line " */"] =
      ('/' :: (['*', '*', '\n'] ++ (docLines " *" content).flatMap (fun t ↦ t.toList ++ ['\n']) ++
        [' ']) ++ ['*', '/'] ++ ['\n']).foldl put w := by
  have hm : ("/**" :: docLines " *" content ++ [" */"]).map Code.line =
      [Code.line "/**"] ++ (docLines " *" content).map .line ++ [Code.line " */"] := by simp
  have hr : runAll w [.line "/**", .doc " *" content, .line " */"] =
      runAll w (("/**" :: docLines " *" content ++ [" */"]).map .line) := by
    rw [hm, runAll_append, runAll_append, ← doc_eq]
    rfl
  rw [hr, runAll_map_line]
  refine congrArg (List.foldl put w) ?_
  simp

theorem occursIn_doc {content : String} (h : hasPart content "*/" = false) :
    occursIn ['*', '/'] ('/' :: (['*', '*', '\n'] ++
      (docLines " *" content).flatMap (fun t ↦ t.toList ++ ['\n']) ++ [' ']) ++ ['*']) = false := by
  have ho : '/' :: (['*', '*', '\n'] ++
      (docLines " *" content).flatMap (fun t ↦ t.toList ++ ['\n']) ++ [' ']) ++ ['*'] =
      ['/', '*', '*'] ++ '\n' ::
        ((docLines " *" content).flatMap (fun t ↦ t.toList ++ ['\n']) ++ ' ' :: ['*']) := by simp
  rw [ho, occursIn_append_cons (by decide), occursIn_append_cons (by decide),
    occursIn_flatMap_lines (occursIn_docLines h)]
  decide

/-- A comment of several lines ends where it closes if what it says does not close it. -/
private theorem closes_doc {content : String} (h : hasPart content "*/" = false) :
    Closes [.line "/**", .doc " *" content, .line " */"] := by
  intro w rest hw
  refine ⟨[trim ((runAll w [.line "/**", .doc " *" content, .line " */"]).since w)], rfl, ?_⟩
  rw [List.forall_mem_singleton, runAll_doc, trim_since_comment hw, closesOnce_indented_iff hw,
    occursIn_doc h]
  exact iff_true_intro rfl

end Code

namespace Comment

open Code Text

private theorem isPrefixOf_close_iff {c d : Char} {cs : List Char} :
    ['*', '/'].isPrefixOf (c :: d :: cs) = true ↔ c = '*' ∧ d = '/' := by
  rw [List.isPrefixOf_iff_prefix, List.cons_prefix_cons, List.cons_prefix_cons]
  simp [@eq_comm _ '*', @eq_comm _ '/']

/-- What is escaped keeps its first character. -/
private theorem exists_replaceFrom_eq_cons (c : Char) (cs : List Char) :
    ∃ rest, replaceFrom ['*', '/'] ['*', '\\', '/'] 0 (c :: cs) = c :: rest := by
  cases hp : ['*', '/'].isPrefixOf (c :: cs) with
  | false => exact ⟨_, replaceFrom_elsewhere hp⟩
  | true =>
    rw [replaceFrom_occurrence hp]
    obtain ⟨rest, hr⟩ := List.isPrefixOf_iff_prefix.mp hp
    obtain ⟨rfl, -⟩ := List.cons.inj hr
    exact ⟨_, rfl⟩

/-- A text in a block comment does not close it. -/
private theorem occursIn_replaceFrom : ∀ cs : List Char,
    occursIn ['*', '/'] (replaceFrom ['*', '/'] ['*', '\\', '/'] 0 cs) = false
  | [] => rfl
  | [c] => by
    rw [replaceFrom_elsewhere (by simp [List.isPrefixOf])]
    simp [replaceFrom, occursIn, List.isPrefixOf]
  | c :: d :: cs => by
    cases hp : ['*', '/'].isPrefixOf (c :: d :: cs) with
    | true =>
      obtain ⟨rfl, rfl⟩ := isPrefixOf_close_iff.mp hp
      rw [replaceFrom_occurrence hp]
      change occursIn ['*', '/'] ('*' :: '\\' :: '/' :: replaceFrom _ _ 0 cs) = false
      simp [occursIn, List.isPrefixOf, occursIn_replaceFrom cs]
    | false =>
      have ih := occursIn_replaceFrom (d :: cs)
      obtain ⟨rest, hr⟩ := exists_replaceFrom_eq_cons d cs
      rw [replaceFrom_elsewhere hp, occursIn, ih, hr, Bool.or_false]
      rw [Bool.eq_false_iff, ne_eq, isPrefixOf_close_iff] at hp ⊢
      exact hp

theorem hasPart_escapeBlock (text : String) : hasPart (escapeBlock text) "*/" = false := by
  rw [hasPart, escapeBlock, toList_replace (by decide)]
  exact occursIn_replaceFrom _

/-- The documentation of a text ends where it closes, whatever the text is. -/
theorem closes_block (text : String) : Closes (block text) := by
  have h := hasPart_escapeBlock text
  unfold block
  dsimp only
  split
  · exact closesIff_nil
  · split
    · exact closes_doc h
    · exact (closesIff_comment _).congr (iff_true_intro h)

end Comment

end RpcForge

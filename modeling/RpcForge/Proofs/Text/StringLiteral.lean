import RpcForge.Proofs.Client.LiteralSpelling
import RpcForge.Proofs.Code.Writer

/-!
# String literals

What a literal between double quotes means in the target languages: to Python a list of code points,
to ECMAScript a list of the units of UTF-16. The languages share some escapes and differ in others,
and both go beyond JSON. A text that is quoted as in JSON uses only what they share, so both read it
back, and it stands on one line.
-/

namespace RpcForge.StringLiteral

open RpcForge.Text (hexDigits jsonEscape quote)
open RpcForge.TypeGrammar (hexDigits_control hexValue? shortEscapes)

/-! ## Reading a literal -/

/-- The rules of a language for what stands between double quotes. -/
structure Rules where
  /-- What a character means that is not escaped, if it may stand there. -/
  plain : Char → Option (List Nat)
  /-- What the next characters mean behind a backslash, and how many of them belong to it. -/
  escape : List Char → Option (List Nat × Nat)

namespace Rules

/-- What stands in front of the closing quote means, and what stands behind it. The next `skip`
characters belong to an escape that was read already. -/
def content? (rules : Rules) : Nat → List Char → Option (List Nat × List Char)
  | _, [] => none
  | skip + 1, _ :: cs => rules.content? skip cs
  | 0, c :: cs =>
    if c = '"' then some ([], cs)
    else if c = '\\' then
      (rules.escape cs).bind fun (values, taken) ↦
        (rules.content? taken cs).map (Prod.map (values ++ ·) id)
    else
      (rules.plain c).bind fun values ↦ (rules.content? 0 cs).map (Prod.map (values ++ ·) id)

/-- What a text means that is one literal and nothing else. -/
def value? (rules : Rules) (text : String) : Option (List Nat) :=
  match text.toList with
  | '"' :: cs =>
    (rules.content? 0 cs).bind fun (values, behind) ↦ if behind = [] then some values else none
  | _ => none

private theorem content?_append_skip (rules : Rules) (front cs : List Char) :
    rules.content? front.length (front ++ cs) = rules.content? 0 cs := by
  induction front with
  | nil => rfl
  | cons c front ih =>
    rw [List.length_cons, List.cons_append, content?]
    exact ih

private theorem content?_backslash {rules : Rules} (front : List Char) {cs : List Char}
    {values : List Nat} (h : rules.escape (front ++ cs) = some (values, front.length)) :
    rules.content? 0 ('\\' :: (front ++ cs)) =
      (rules.content? 0 cs).map (Prod.map (values ++ ·) id) := by
  rw [content?, if_neg (by decide), if_pos rfl, h]
  show (rules.content? front.length (front ++ cs)).map _ = _
  rw [content?_append_skip]

private theorem content?_plain {rules : Rules} {c : Char} {values : List Nat} (hq : c ≠ '"')
    (hb : c ≠ '\\') (h : rules.plain c = some values) (cs : List Char) :
    rules.content? 0 (c :: cs) = (rules.content? 0 cs).map (Prod.map (values ++ ·) id) := by
  rw [content?, if_neg hq, if_neg hb, h, Option.bind_some]

end Rules

/-- The number that the next digits mean, if there are as many hexadecimal ones as asked for. -/
def hex? (width : Nat) (cs : List Char) : Option Nat :=
  if (cs.take width).length = width then hexValue? (cs.take width) else none

/-! ## Python -/

/-- Whether a character is an octal digit. -/
def isOctal (c : Char) : Bool :=
  '0' ≤ c ∧ c ≤ '7'

/-- The number that octal digits mean. -/
def octalValue (digits : List Char) : Nat :=
  digits.foldl (fun n c ↦ 8 * n + (c.toNat - '0'.toNat)) 0

/-- The escapes of Python, where `named` tells the characters that have a name. The end of a line
means nothing, and a backslash in front of anything else means itself. -/
def pythonEscape (named : String → Option Nat) : List Char → Option (List Nat × Nat)
  | [] => none
  | '\x00' :: _ => none
  | '\n' :: _ => some ([], 1)
  | '\r' :: '\n' :: _ => some ([], 2)
  | '\r' :: _ => some ([], 1)
  | 'x' :: cs => (hex? 2 cs).map fun n ↦ ([n], 3)
  | 'u' :: cs => (hex? 4 cs).map fun n ↦ ([n], 5)
  | 'U' :: cs => ((hex? 8 cs).filter (· ≤ 0x10FFFF)).map fun n ↦ ([n], 9)
  | 'N' :: cs =>
    let name := (cs.drop 1).takeWhile (· != '}')
    if cs.head? = some '{' ∧ name.length + 1 < cs.length then
      (named (String.ofList name)).map fun n ↦ ([n], name.length + 3)
    else none
  | c :: cs =>
    let digits := ((c :: cs).take 3).takeWhile isOctal
    if digits ≠ [] then some ([octalValue digits], digits.length)
    else match shortEscapes.lookup c with
      | some d => some ([d.toNat], 1)
      | none => some (['\\'.toNat, c.toNat], 1)

/-- The rules of Python, whose strings are made of code points. -/
def python (named : String → Option Nat) : Rules where
  plain c := if c ∈ ['\x00', '\n', '\r'] then none else some [c.toNat]
  escape := pythonEscape named

/-! ## ECMAScript -/

/-- The units of UTF-16 for a code point. -/
def units (n : Nat) : List Nat :=
  if n < 0x10000 then [n]
  else [0xD800 + (n - 0x10000) / 0x400, 0xDC00 + (n - 0x10000) % 0x400]

/-- A text in UTF-16. -/
def utf16 (text : String) : List Nat :=
  text.toList.flatMap fun c ↦ units c.toNat

/-- Whether a character ends a line. -/
def isLineEnd (c : Char) : Bool :=
  c ∈ ['\n', '\r', '\u2028', '\u2029']

/-- The escapes of ECMAScript in the code of a module. The end of a line means nothing, and a
backslash in front of a character that is neither a digit nor the letter of an escape is dropped. -/
def ecmaScriptEscape : List Char → Option (List Nat × Nat)
  | [] => none
  | '\r' :: '\n' :: _ => some ([], 2)
  | 'x' :: cs => (hex? 2 cs).map fun n ↦ ([n], 3)
  | 'u' :: '{' :: cs =>
    let digits := cs.takeWhile (· != '}')
    if digits ≠ [] ∧ digits.length < cs.length then
      ((hexValue? digits).filter (· ≤ 0x10FFFF)).map fun n ↦ (units n, digits.length + 3)
    else none
  | 'u' :: cs => (hex? 4 cs).map fun n ↦ ([n], 5)
  | c :: cs =>
    if isLineEnd c then some ([], 1)
    else if c = '0' ∧ cs.head?.all (!·.isDigit) then some ([0], 1)
    else if c.isDigit then none
    else match (shortEscapes.filter (·.1 != 'a')).lookup c with
      | some d => some ([d.toNat], 1)
      | none => some (units c.toNat, 1)

/-- The rules of ECMAScript, whose strings are made of units of UTF-16. Since 2019 the separators of
lines and paragraphs may stand in a literal. -/
def ecmaScript : Rules where
  plain c := if c ∈ ['\n', '\r'] then none else some (units c.toNat)
  escape := ecmaScriptEscape

/-! ## What quoting needs -/

/-- The escapes of one letter that quoting makes use of. -/
def jsonLetters : List (Char × Char) :=
  [('"', '"'), ('\\', '\\'), ('b', '\x08'), ('f', '\x0c'), ('n', '\n'), ('r', '\r'), ('t', '\t')]

/-- A character is written by its letter if it has one, by its code if it is another control, and
otherwise as it is. -/
private theorem jsonEscape_cases (c : Char) :
    (∃ letter, (letter, c) ∈ jsonLetters ∧ jsonEscape c = '\\' :: [letter]) ∨
      (c.toNat < 0x20 ∧ jsonEscape c = '\\' :: 'u' :: hexDigits 4 c.toNat) ∨
      (0x20 ≤ c.toNat ∧ c ≠ '"' ∧ c ≠ '\\' ∧ jsonEscape c = [c]) := by
  by_cases h₁ : c = '"'
  · subst h₁
    exact .inl ⟨'"', by decide, rfl⟩
  by_cases h₂ : c = '\\'
  · subst h₂
    exact .inl ⟨'\\', by decide, rfl⟩
  by_cases h₃ : c = '\x08'
  · subst h₃
    exact .inl ⟨'b', by decide, rfl⟩
  by_cases h₄ : c = '\x0c'
  · subst h₄
    exact .inl ⟨'f', by decide, rfl⟩
  by_cases h₅ : c = '\n'
  · subst h₅
    exact .inl ⟨'n', by decide, rfl⟩
  by_cases h₆ : c = '\r'
  · subst h₆
    exact .inl ⟨'r', by decide, rfl⟩
  by_cases h₇ : c = '\t'
  · subst h₇
    exact .inl ⟨'t', by decide, rfl⟩
  rw [jsonEscape, if_neg h₁, if_neg h₂, if_neg h₃, if_neg h₄, if_neg h₅, if_neg h₆, if_neg h₇]
  by_cases hc : c.toNat < 0x20
  · exact .inr (.inl ⟨hc, if_pos hc⟩)
  · exact .inr (.inr ⟨Nat.le_of_not_lt hc, h₁, h₂, if_neg hc⟩)

/-- Rules under which what quoting makes use of means the characters that it is written for. -/
structure Rules.Reads (rules : Rules) (meaning : Char → List Nat) : Prop where
  /-- A letter means its character. -/
  letter : ∀ entry ∈ jsonLetters, ∀ cs,
    rules.escape (entry.1 :: cs) = some (meaning entry.2, 1)
  /-- Four digits mean the control with that code. -/
  code : ∀ c : Char, c.toNat < 0x20 → ∀ cs,
    rules.escape ('u' :: (hexDigits 4 c.toNat ++ cs)) = some (meaning c, 5)
  /-- Every character but the controls may stand for itself. -/
  plain : ∀ c : Char, 0x20 ≤ c.toNat → rules.plain c = some (meaning c)

namespace Rules.Reads

variable {rules : Rules} {meaning : Char → List Nat} (reads : rules.Reads meaning)
include reads

private theorem content?_jsonEscape (c : Char) (cs : List Char) :
    rules.content? 0 (jsonEscape c ++ cs) =
      (rules.content? 0 cs).map (Prod.map (meaning c ++ ·) id) := by
  rcases jsonEscape_cases c with ⟨letter, hm, he⟩ | ⟨hc, he⟩ | ⟨hc, hq, hb, he⟩
  · rw [he]
    exact content?_backslash [letter] (reads.letter (letter, c) hm cs)
  · rw [he]
    apply content?_backslash ('u' :: hexDigits 4 c.toNat)
    rw [List.length_cons, (hexDigits_control c.toNat hc).1]
    exact reads.code c hc cs
  · rw [he]
    exact content?_plain hq hb (reads.plain c hc) cs

private theorem content?_flatMap_jsonEscape (text rest : List Char) :
    rules.content? 0 (text.flatMap jsonEscape ++ '"' :: rest) =
      some (text.flatMap meaning, rest) := by
  induction text with
  | nil => rfl
  | cons c text ih =>
    rw [List.flatMap_cons, List.append_assoc, reads.content?_jsonEscape, ih]
    rfl

/-- A quoted text means what its characters mean. -/
private theorem value?_quote (text : String) :
    rules.value? (quote text) = some (text.toList.flatMap meaning) := by
  have hc := reads.content?_flatMap_jsonEscape text.toList []
  rw [value?, quote, String.toList_ofList, List.cons_append]
  simp only [hc, Option.bind_some, if_pos]

end Rules.Reads

private theorem hex?_hexDigits {n : Nat} (h : n < 0x20) (cs : List Char) :
    hex? 4 (hexDigits 4 n ++ cs) = some n := by
  obtain ⟨hl, hv⟩ := hexDigits_control n h
  rw [hex?, List.take_left' hl, if_pos hl, hv]

private theorem head?_hexDigits : ∀ n < 0x20, (hexDigits 4 n).head? = some '0' := by
  decide

private theorem reads_python (named : String → Option Nat) :
    (python named).Reads fun c ↦ [c.toNat] where
  letter := by
    intro entry he cs
    simp only [jsonLetters, List.mem_cons, List.not_mem_nil, or_false] at he
    rcases he with rfl | rfl | rfl | rfl | rfl | rfl | rfl <;> rfl
  code := by
    intro c hc cs
    have hx := hex?_hexDigits hc cs
    generalize hexDigits 4 c.toNat ++ cs = rest at hx ⊢
    exact congrArg (Option.map fun n ↦ ([n], 5)) hx
  plain := by
    intro c hc
    apply if_neg
    intro hm
    simp only [List.mem_cons, List.not_mem_nil, or_false] at hm
    rcases hm with rfl | rfl | rfl <;> exact absurd hc (by decide)

private theorem reads_ecmaScript : ecmaScript.Reads fun c ↦ units c.toNat where
  letter := by
    intro entry he cs
    simp only [jsonLetters, List.mem_cons, List.not_mem_nil, or_false] at he
    rcases he with rfl | rfl | rfl | rfl | rfl | rfl | rfl <;> rfl
  code := by
    intro c hc cs
    obtain ⟨ds, he⟩ := List.head?_eq_some_iff.mp (head?_hexDigits c.toNat hc)
    have hu : units c.toNat = [c.toNat] := if_pos (by omega)
    have hx := hex?_hexDigits hc cs
    rw [he, List.cons_append] at hx ⊢
    show (hex? 4 ('0' :: (ds ++ cs))).map _ = _
    rw [hx, hu]
    rfl
  plain := by
    intro c hc
    apply if_neg
    intro hm
    simp only [List.mem_cons, List.not_mem_nil, or_false] at hm
    rcases hm with rfl | rfl <;> exact absurd hc (by decide)

/-! ## UTF-16 -/

/-- The units of a character are told apart from those of any other one, whatever follows them. -/
private theorem units_append_inj {c d : Char} {as bs : List Nat}
    (h : units c.toNat ++ as = units d.toNat ++ bs) : c = d ∧ as = bs := by
  have hc : c.toNat < 0xD800 ∨ 0xDFFF < c.toNat ∧ c.toNat < 0x110000 := c.valid
  have hd : d.toNat < 0xD800 ∨ 0xDFFF < d.toNat ∧ d.toNat < 0x110000 := d.valid
  rw [← Char.toNat_inj]
  unfold units at h
  by_cases hn : c.toNat < 0x10000 <;> by_cases hm : d.toNat < 0x10000
  · rw [if_pos hn, if_pos hm] at h
    exact List.cons.inj h
  · -- a half of a pair is no character
    rw [if_pos hn, if_neg hm] at h
    have hv := (List.cons.inj h).1
    omega
  · rw [if_neg hn, if_pos hm] at h
    have hv := (List.cons.inj h).1
    omega
  · rw [if_neg hn, if_neg hm] at h
    simp only [List.cons_append, List.nil_append, List.cons.injEq] at h
    obtain ⟨h₁, h₂, hr⟩ := h
    exact ⟨by omega, hr⟩

private theorem units_ne_nil (n : Nat) : units n ≠ [] := by
  unfold units
  split <;> exact List.cons_ne_nil _ _

/-- A text is determined by its units. -/
private theorem utf16_injective : Function.Injective utf16 := by
  have hl : ∀ cs ds : List Char,
      (cs.flatMap fun c ↦ units c.toNat) = (ds.flatMap fun c ↦ units c.toNat) → cs = ds := by
    intro cs
    induction cs with
    | nil =>
      intro ds h
      cases ds with
      | nil => rfl
      | cons d ds => simp [units_ne_nil] at h
    | cons c cs ih =>
      intro ds h
      cases ds with
      | nil => simp [units_ne_nil] at h
      | cons d ds =>
        obtain ⟨rfl, hr⟩ := units_append_inj h
        rw [ih ds hr]
  intro s t h
  exact String.toList_inj.mp (hl _ _ h)

/-! ## On a line -/

/-- Escaped characters stand on one line. -/
private theorem lineEnds_not_mem_jsonEscape (c : Char) :
    '\n' ∉ jsonEscape c ∧ '\r' ∉ jsonEscape c := by
  have hd : ∀ n < 0x20, '\n' ∉ hexDigits 4 n ∧ '\r' ∉ hexDigits 4 n := by decide
  have hl : ∀ entry ∈ jsonLetters, '\n' ∉ ['\\', entry.1] ∧ '\r' ∉ ['\\', entry.1] := by decide
  rcases jsonEscape_cases c with ⟨letter, hm, he⟩ | ⟨hc, he⟩ | ⟨hc, hq, hb, he⟩
  · rw [he]
    exact hl (letter, c) hm
  · rw [he]
    simpa using hd c.toNat hc
  · rw [he]
    constructor
    · intro hm
      obtain rfl := List.mem_singleton.mp hm
      exact absurd hc (by decide)
    · intro hm
      obtain rfl := List.mem_singleton.mp hm
      exact absurd hc (by decide)

private theorem lineEnds_not_mem_quote (text : String) :
    '\n' ∉ (quote text).toList ∧ '\r' ∉ (quote text).toList := by
  simp only [quote, String.toList_ofList, List.mem_append, List.mem_cons, List.mem_flatMap,
    List.not_mem_nil, or_false, not_or, not_exists, not_and]
  exact ⟨⟨⟨by decide, fun c _ ↦ (lineEnds_not_mem_jsonEscape c).1⟩, by decide⟩,
    ⟨⟨by decide, fun c _ ↦ (lineEnds_not_mem_jsonEscape c).2⟩, by decide⟩⟩

/-- A writer writes a quoted text as it is, behind the indentation if a line begins with it. -/
private theorem since_write_quote (w : CodeWriter) (text : String) :
    (w.write (quote text)).since w =
      String.ofList (if w.atLineStart then w.indentation else []) ++ quote text := by
  have hn := (lineEnds_not_mem_quote text).1
  have hq : (quote text).toList = '"' :: (text.toList.flatMap jsonEscape ++ ['"']) := by
    rw [quote, String.toList_ofList, List.cons_append]
  rw [hq, List.mem_cons, not_or] at hn
  rw [CodeWriter.write, CodeWriter.since_foldl_put, hq, CodeWriter.indented_cons_of_ne (by decide),
    CodeWriter.indented_false_eq hn.2, ← hq, String.ofList_append, String.ofList_toList]

/-- A quoted text is one literal on one line. To Python, whatever characters have names there, it
means the code points of the text, and to ECMAScript its units, which no other text has. A writer
does not change it. -/
theorem quote_readBack (text : String) :
    (∀ named, (python named).value? (quote text) = some (text.toList.map Char.toNat)) ∧
      ecmaScript.value? (quote text) = some (utf16 text) ∧
      (∀ other, utf16 other = utf16 text → other = text) ∧
      ('\n' ∉ (quote text).toList ∧ '\r' ∉ (quote text).toList) ∧
      ∀ w : CodeWriter, (w.write (quote text)).since w =
        String.ofList (if w.atLineStart then w.indentation else []) ++ quote text := by
  refine ⟨fun named ↦ ?_, reads_ecmaScript.value?_quote text, fun _ h ↦ utf16_injective h,
    lineEnds_not_mem_quote text, fun w ↦ since_write_quote w text⟩
  rw [(reads_python named).value?_quote, ← List.map_eq_flatMap]

/-- Where the languages differ, they do so on what is never written. -/
example : (python fun _ ↦ none).value? "\"\\101\\d\"" = some [0x41, 0x5C, 0x64] ∧
    ecmaScript.value? "\"\\101\"" = none ∧ ecmaScript.value? "\"\\d\"" = some [0x64] ∧
    ecmaScript.value? "\"\\u\x7b1F600\x7d\"" = some [0xD83D, 0xDE00] := by
  decide

end RpcForge.StringLiteral

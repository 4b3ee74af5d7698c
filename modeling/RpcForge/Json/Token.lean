import RpcForge.Json.Number

/-!
# Tokens of a JSON text

A JSON text as a list of tokens. Reading stops at the first token that cannot be read, and that
token holds the reason, so that whoever reads the list meets the reason only on getting there.
Blanks between tokens are the four that JSON allows.
-/

namespace RpcForge.Json

open RpcForge.Decimal

/-- Why a text is not JSON. -/
inductive SyntaxError where
  /-- The text ends where a value is due. -/
  | endInValue
  /-- The text ends inside a string. -/
  | endInString
  /-- The text ends inside an array. -/
  | endInArray
  /-- The text ends inside an object. -/
  | endInObject
  /-- No value starts here. -/
  | expectedValue
  /-- A word starts like a literal and goes on otherwise. -/
  | expectedLiteral
  /-- A key has no colon behind it. -/
  | expectedColon
  /-- An item is followed by neither comma nor bracket. -/
  | expectedCommaOrBracket
  /-- A member is followed by neither comma nor brace. -/
  | expectedCommaOrBrace
  /-- A key is not a string. -/
  | keyNotString
  /-- A comma stands right before the closing bracket or brace. -/
  | trailingComma
  /-- Something follows the value. -/
  | trailingCharacters
  /-- Digits, point or exponent are not where they should be. -/
  | badNumber
  /-- A number is too large. -/
  | numberOutOfRange
  /-- A backslash is followed by no known escape. -/
  | badEscape
  /-- A leading surrogate has no second escape behind it. -/
  | unfinishedSurrogate
  /-- A surrogate has no partner. -/
  | loneSurrogate
  /-- A string holds a control character. -/
  | controlInString
  /-- Arrays and objects are nested too deeply. -/
  | tooDeep
deriving DecidableEq, Repr

/-- The message of a syntax error. -/
def SyntaxError.message : SyntaxError → String
  | .endInValue => "EOF while parsing a value"
  | .endInString => "EOF while parsing a string"
  | .endInArray => "EOF while parsing a list"
  | .endInObject => "EOF while parsing an object"
  | .expectedValue => "expected value"
  | .expectedLiteral => "expected ident"
  | .expectedColon => "expected `:`"
  | .expectedCommaOrBracket => "expected `,` or `]`"
  | .expectedCommaOrBrace => "expected `,` or `\x7d`"
  | .keyNotString => "key must be a string"
  | .trailingComma => "trailing comma"
  | .trailingCharacters => "trailing characters"
  | .badNumber => "invalid number"
  | .numberOutOfRange => "number out of range"
  | .badEscape => "invalid escape"
  | .unfinishedSurrogate => "unexpected end of hex escape"
  | .loneSurrogate => "lone leading surrogate in hex escape"
  | .controlInString => "control character (\\u0000-\\u001F) found while parsing a string"
  | .tooDeep => "recursion limit exceeded"

/-- One token. -/
inductive Token where
  /-- An opening bracket. -/
  | openArray
  /-- A closing bracket. -/
  | closeArray
  /-- An opening brace. -/
  | openObject
  /-- A closing brace. -/
  | closeObject
  /-- A comma. -/
  | comma
  /-- A colon. -/
  | colon
  /-- The literal `null`. -/
  | null
  /-- A truth value. -/
  | bool (b : Bool)
  /-- A number. -/
  | number (n : Number)
  /-- A string. -/
  | string (s : String)
  /-- A string that cannot be read; always the last token. -/
  | brokenString (reason : SyntaxError)
  /-- Anything else that cannot be read; always the last token. -/
  | broken (reason : SyntaxError)
deriving DecidableEq, Repr

namespace Token

/-- What a scanner finds at the start of the characters, and the characters behind it. -/
abbrev Scan (α : Type) := Except SyntaxError (α × List Char)

/-! ### Strings -/

/-- The value of a hexadecimal digit. -/
def hexValue? (c : Char) : Option Nat :=
  if c.isDigit then some (c.toNat - '0'.toNat)
  else if 'a' ≤ c ∧ c ≤ 'f' then some (c.toNat - 'a'.toNat + 10)
  else if 'A' ≤ c ∧ c ≤ 'F' then some (c.toNat - 'A'.toNat + 10)
  else none

/-- The number that the next four hexadecimal digits stand for. Where fewer than four bytes are left
the text has ended too early, otherwise the escape is wrong. -/
def fourHexDigits (cs : List Char) : Except SyntaxError Nat :=
  let next := cs.take 4
  match next.mapM hexValue? with
  | some [a, b, c, d] => .ok (((a * 16 + b) * 16 + c) * 16 + d)
  | _ => .error (if 4 ≤ (String.ofList next).utf8ByteSize then .badEscape else .endInString)

/-- Whether a number is the first half of a surrogate pair. -/
def isLeadingSurrogate (n : Nat) : Bool :=
  0xD800 ≤ n && n ≤ 0xDBFF

/-- Whether a number is the second half of a surrogate pair. -/
def isTrailingSurrogate (n : Nat) : Bool :=
  0xDC00 ≤ n && n ≤ 0xDFFF

/-- The character of a numeric escape whose digits come next, and how many characters it takes
behind the letter `u`. Characters beyond the first plane take two escapes. -/
def numericEscape (cs : List Char) : Except SyntaxError (Char × Nat) := do
  let first ← fourHexDigits cs
  if isTrailingSurrogate first then throw .loneSurrogate
  if !isLeadingSurrogate first then return (Char.ofNat first, 4)
  match cs.drop 4 with
  | [] => throw .endInString
  | ['\\'] => throw .endInString
  | '\\' :: 'u' :: rest =>
    let second ← fourHexDigits rest
    if !isTrailingSurrogate second then throw .loneSurrogate
    return (Char.ofNat (0x10000 + (first - 0xD800) * 0x400 + (second - 0xDC00)), 10)
  | _ => throw .unfinishedSurrogate

/-- The character of the escape whose backslash was just read, and how many characters it takes. -/
def escaped : List Char → Except SyntaxError (Char × Nat)
  | [] => .error .endInString
  | 'u' :: cs => (numericEscape cs).map fun (c, taken) ↦ (c, taken + 1)
  | c :: _ =>
    if c = '"' ∨ c = '\\' ∨ c = '/' then .ok (c, 1)
    else if c = 'b' then .ok ('\x08', 1)
    else if c = 'f' then .ok ('\x0c', 1)
    else if c = 'n' then .ok ('\n', 1)
    else if c = 'r' then .ok ('\r', 1)
    else if c = 't' then .ok ('\t', 1)
    else .error .badEscape

/-- The rest of a string. `done` holds its characters so far, backwards, and the next `skip`
characters belong to an escape that is already among them. -/
def scanString (done : List Char) : Nat → List Char → Scan String
  | _, [] => .error .endInString
  | skip + 1, _ :: cs => scanString done skip cs
  | 0, c :: cs =>
    if c = '"' then .ok (String.ofList done.reverse, cs)
    else if c = '\\' then
      match escaped cs with
      | .error reason => .error reason
      | .ok (d, taken) => scanString (d :: done) taken cs
    else if c.toNat < 0x20 then .error .controlInString
    else scanString (c :: done) 0 cs

/-! ### Numbers -/

/-- The number that decimal digits stand for. -/
def digitsValue (digits : List Char) : Nat :=
  digits.foldl (fun n c ↦ 10 * n + (c.toNat - '0'.toNat)) 0

/-- Append digits to a significand as long as it fits in 64 bits, and count them. -/
def absorb (significand : Nat) : List Char → Nat × Nat
  | [] => (significand, 0)
  | c :: cs =>
    let longer := 10 * significand + (c.toNat - '0'.toNat)
    if longer < Nat.pow 2 64 then
      let (all, count) := absorb longer cs
      (all, count + 1)
    else (significand, 0)

/-- The double of a decimal. Its significand takes the digits that fit in 64 bits; every digit
of the whole part that does not fit counts as a power of ten, and those of the fraction are left
out. -/
def decimalValue (negative : Bool) (whole fraction : List Char) (exponent : Int) :
    Except SyntaxError Number :=
  let (head, taken) := absorb 0 whole
  let (significand, behind) := absorb head fraction
  match Double.ofDecimal? negative (UInt64.ofNat significand)
      ((whole.length - taken : Nat) - behind + exponent) with
  | some d => .ok (.double d)
  | none => .error .numberOutOfRange

/-- The value of a numeral without fraction and exponent. -/
def wholeValue (negative : Bool) (whole : List Char) : Except SyntaxError Number :=
  let n : Int := digitsValue whole
  let signed := if negative then -n else n
  if (negative ∧ n = 0) ∨ signed < Number.minInt ∨ Number.maxInt < signed then
    decimalValue negative whole [] 0
  else .ok (.int signed)

/-- Digits at the start of the characters, of which there has to be one. -/
def scanDigits (cs : List Char) : Scan (List Char) :=
  match cs with
  | [] => .error .endInValue
  | c :: _ =>
    if c.isDigit then .ok (cs.takeWhile Char.isDigit, cs.dropWhile Char.isDigit)
    else .error .badNumber

/-- The fraction of a number, if there is one. -/
def scanFraction : List Char → Scan (Option (List Char))
  | '.' :: cs => (scanDigits cs).map fun (digits, rest) ↦ (some digits, rest)
  | cs => .ok (none, cs)

/-- The digits of an exponent behind its letter, with their sign. -/
def scanSigned : List Char → Scan Int
  | '+' :: cs => (scanDigits cs).map fun (digits, rest) ↦ ((digitsValue digits : Int), rest)
  | '-' :: cs => (scanDigits cs).map fun (digits, rest) ↦ (-(digitsValue digits : Int), rest)
  | cs => (scanDigits cs).map fun (digits, rest) ↦ ((digitsValue digits : Int), rest)

/-- The exponent of a number, if there is one. -/
def scanExponent : List Char → Scan (Option Int)
  | 'e' :: cs => (scanSigned cs).map fun (n, rest) ↦ (some n, rest)
  | 'E' :: cs => (scanSigned cs).map fun (n, rest) ↦ (some n, rest)
  | cs => .ok (none, cs)

/-- A number behind its sign. -/
def scanNumber (negative : Bool) (cs : List Char) :
    Except SyntaxError (Number × List Char) := do
  let (whole, rest) ← scanDigits cs
  if whole.head? = some '0' ∧ whole.length ≠ 1 then throw .badNumber
  let (fraction, rest) ← scanFraction rest
  let (exponent, rest) ← scanExponent rest
  match fraction, exponent with
  | none, none => return (← wholeValue negative whole, rest)
  | _, _ => return (← decimalValue negative whole (fraction.getD []) (exponent.getD 0), rest)

/-! ### Tokens -/

/-- The characters behind a word that is due. -/
def scanWord : List Char → List Char → Except SyntaxError (List Char)
  | [], cs => .ok cs
  | _ :: _, [] => .error .endInValue
  | w :: ws, c :: cs => if w = c then scanWord ws cs else .error .expectedLiteral

/-- Whether a character may stand between tokens. -/
def isSpace (c : Char) : Bool :=
  c = ' ' || c = '\n' || c = '\t' || c = '\r'

/-- The token of a literal whose first letter was read. -/
def scanLiteral (letters : String) (token : Token) (cs : List Char) : Token × List Char :=
  match scanWord letters.toList cs with
  | .ok rest => (token, rest)
  | .error reason => (.broken reason, [])

/-- The token of a number. -/
def scanNumeral (negative : Bool) (cs : List Char) : Token × List Char :=
  match scanNumber negative cs with
  | .ok (n, rest) => (.number n, rest)
  | .error reason => (.broken reason, [])

/-- The token of a string whose opening quote was read. -/
def scanText (cs : List Char) : Token × List Char :=
  match scanString [] 0 cs with
  | .ok (s, rest) => (.string s, rest)
  | .error reason => (.brokenString reason, [])

/-- The token that starts with a character, and the characters behind it. -/
def scan (c : Char) (cs : List Char) : Token × List Char :=
  if c = '[' then (.openArray, cs)
  else if c = ']' then (.closeArray, cs)
  else if c = '\x7b' then (.openObject, cs)
  else if c = '\x7d' then (.closeObject, cs)
  else if c = ',' then (.comma, cs)
  else if c = ':' then (.colon, cs)
  else if c = 'n' then scanLiteral "ull" .null cs
  else if c = 't' then scanLiteral "rue" (.bool true) cs
  else if c = 'f' then scanLiteral "alse" (.bool false) cs
  else if c = '-' then scanNumeral true cs
  else if c.isDigit then scanNumeral false (c :: cs)
  else if c = '"' then scanText cs
  else (.broken .expectedValue, [])

/-! ### Scanners leave a rest of the text -/

private theorem scanString_length {s : String} {rest : List Char} :
    ∀ {done : List Char} {skip : Nat} {cs : List Char},
      scanString done skip cs = .ok (s, rest) → rest.length ≤ cs.length := by
  intro done skip cs
  fun_induction scanString done skip cs with
  | case1 => intro h; cases h
  | case2 done skip c cs ih => intro h; exact Nat.le_succ_of_le (ih h)
  | case3 => intro h; cases h; exact Nat.le_succ _
  | case4 => intro h; cases h
  | case5 done cs _ d taken _ ih => intro h; exact Nat.le_succ_of_le (ih h)
  | case6 => intro h; cases h
  | case7 done c cs _ _ _ ih => intro h; exact Nat.le_succ_of_le (ih h)

private theorem scanDigits_length {digits rest cs : List Char}
    (h : scanDigits cs = .ok (digits, rest)) : rest.length < cs.length := by
  unfold scanDigits at h
  split at h
  · cases h
  · next c cs =>
    split at h
    · next hc =>
      cases h
      rw [List.dropWhile_cons_of_pos hc]
      exact Nat.lt_succ_of_le (List.dropWhile_suffix _).length_le
    · cases h

private theorem scanSigned_length {n : Int} {rest cs : List Char}
    (h : scanSigned cs = .ok (n, rest)) : rest.length ≤ cs.length := by
  unfold scanSigned at h
  split at h <;> (cases hd : scanDigits _ <;> rw [hd] at h) <;> cases h
  · exact Nat.le_succ_of_le (Nat.le_of_lt (scanDigits_length hd))
  · exact Nat.le_succ_of_le (Nat.le_of_lt (scanDigits_length hd))
  · exact Nat.le_of_lt (scanDigits_length hd)

private theorem scanFraction_length {fraction : Option (List Char)} {rest cs : List Char}
    (h : scanFraction cs = .ok (fraction, rest)) : rest.length ≤ cs.length := by
  unfold scanFraction at h
  split at h
  · cases hd : scanDigits _ <;> rw [hd] at h <;> cases h
    exact Nat.le_succ_of_le (Nat.le_of_lt (scanDigits_length hd))
  · cases h; exact Nat.le_refl _

private theorem scanExponent_length {exponent : Option Int} {rest cs : List Char}
    (h : scanExponent cs = .ok (exponent, rest)) : rest.length ≤ cs.length := by
  unfold scanExponent at h
  split at h
  · cases hd : scanSigned _ <;> rw [hd] at h <;> cases h
    exact Nat.le_succ_of_le (scanSigned_length hd)
  · cases hd : scanSigned _ <;> rw [hd] at h <;> cases h
    exact Nat.le_succ_of_le (scanSigned_length hd)
  · cases h; exact Nat.le_refl _

private theorem scanNumber_length {negative : Bool} {n : Number} {rest cs : List Char}
    (h : scanNumber negative cs = .ok (n, rest)) : rest.length < cs.length := by
  unfold scanNumber at h
  cases hd : scanDigits cs with
  | error _ => rw [hd] at h; cases h
  | ok digits =>
    obtain ⟨whole, rest₁⟩ := digits
    rw [hd] at h
    simp only [bind, Except.bind] at h
    split at h
    · cases h
    · cases hf : scanFraction rest₁ with
      | error _ => rw [hf] at h; cases h
      | ok found =>
        obtain ⟨fraction, rest₂⟩ := found
        rw [hf] at h
        cases he : scanExponent rest₂ with
        | error _ => simp only [he] at h; cases h
        | ok found =>
          obtain ⟨exponent, rest₃⟩ := found
          have h₁ := scanDigits_length hd
          have h₂ := scanFraction_length hf
          have h₃ := scanExponent_length he
          have hr : rest = rest₃ := by
            simp only [he] at h
            split at h
            · cases hw : wholeValue negative whole <;> rw [hw] at h <;> cases h; rfl
            · cases hw : decimalValue negative whole (fraction.getD []) (exponent.getD 0) <;>
                rw [hw] at h <;> cases h
              rfl
          subst hr
          omega

private theorem scanWord_length {letters rest cs : List Char}
    (h : scanWord letters cs = .ok rest) : rest.length ≤ cs.length := by
  fun_induction scanWord letters cs with
  | case1 => cases h; exact Nat.le_refl _
  | case2 => cases h
  | case3 _ _ _ ih => exact Nat.le_succ_of_le (ih h)
  | case4 => cases h

private theorem scanLiteral_length (letters : String) (token : Token) (cs : List Char) :
    (scanLiteral letters token cs).2.length ≤ cs.length := by
  unfold scanLiteral
  split
  · next h => exact scanWord_length h
  · exact Nat.zero_le _

private theorem scanNumeral_length (negative : Bool) (cs : List Char) :
    (scanNumeral negative cs).2.length ≤ cs.length - 1 := by
  unfold scanNumeral
  split
  · next h => exact Nat.le_sub_one_of_lt (scanNumber_length h)
  · exact Nat.zero_le _

private theorem scanText_length (cs : List Char) : (scanText cs).2.length ≤ cs.length := by
  unfold scanText
  split
  · next h => exact scanString_length h
  · exact Nat.zero_le _

private theorem rest_ite {p : Prop} [Decidable p] {found other : Token × List Char} {n : Nat}
    (hf : found.2.length ≤ n) (ho : other.2.length ≤ n) :
    (if p then found else other).2.length ≤ n := by
  split
  · exact hf
  · exact ho

private theorem scan_length (c : Char) (cs : List Char) :
    (scan c cs).2.length ≤ cs.length := by
  unfold scan
  iterate 6 refine rest_ite (Nat.le_refl _) ?_
  iterate 3 refine rest_ite (scanLiteral_length _ _ _) ?_
  refine rest_ite (Nat.le_trans (scanNumeral_length _ _) (Nat.sub_le _ _)) ?_
  refine rest_ite (scanNumeral_length _ (c :: cs)) ?_
  exact rest_ite (scanText_length _) (Nat.zero_le _)

/-- The tokens of a text. -/
def ofChars : List Char → List Token
  | [] => []
  | c :: cs =>
    if isSpace c then ofChars cs
    else (scan c cs).1 :: ofChars (scan c cs).2
termination_by cs => cs.length
decreasing_by
  · exact Nat.lt_succ_self _
  · exact Nat.lt_succ_of_le (scan_length c cs)

end Token

end RpcForge.Json

import RpcForge.Text.LetterRanges

/-!
# Letters and their case

Which characters are letters or numbers, which letters have a case, and what a change of case leaves
of a character within the ASCII range. Only that part of a case mapping is kept: everything else is
dropped from an identifier in the end.
-/

namespace RpcForge.Text

/-- Whether a code point lies in one of the ranges. -/
def inRanges (ranges : List (Nat × Nat)) (n : Nat) : Bool :=
  ranges.any fun (first, last) ↦ first ≤ n && n ≤ last

/-- Whether a code point lies in one of the ranges and on its grid. -/
def inSteppedRanges (ranges : List (Nat × Nat × Nat)) (n : Nat) : Bool :=
  ranges.any fun (first, last, step) ↦ first ≤ n && n ≤ last && (n - first) % step == 0

/-- Whether a character belongs to the ASCII range. -/
def isAscii (c : Char) : Bool :=
  c.toNat < 0x80

/-- Whether a character is a letter or a number. -/
def isAlphanumeric (c : Char) : Bool :=
  if isAscii c then c.isAlphanum else inRanges LetterRanges.alphanumeric c.toNat

/-- Whether a character has lower case. -/
def isLowercase (c : Char) : Bool :=
  if isAscii c then c.isLower else inSteppedRanges LetterRanges.lowercase c.toNat

/-- Whether a character has upper case. -/
def isUppercase (c : Char) : Bool :=
  if isAscii c then c.isUpper else inSteppedRanges LetterRanges.uppercase c.toNat

/-- The ASCII characters in the lower-case form of a character. Outside the ASCII range only the
dotted capital I and the Kelvin sign have one. -/
def lowered (c : Char) : List Char :=
  if isAscii c then [c.toLower]
  else match c.toNat with
    | 0x130 => ['i']
    | 0x212A => ['k']
    | _ => []

/-- The ASCII characters in the upper-case form of a character. Outside the ASCII range the sharp s,
the dotless i, the long s, letters with a mark behind or above them and the ligatures have some. -/
def uppered (c : Char) : List Char :=
  if isAscii c then [c.toUpper]
  else match c.toNat with
    | 0xDF => ['S', 'S']
    | 0x131 => ['I']
    | 0x149 => ['N']
    | 0x17F => ['S']
    | 0x1F0 => ['J']
    | 0x1E96 => ['H']
    | 0x1E97 => ['T']
    | 0x1E98 => ['W']
    | 0x1E99 => ['Y']
    | 0x1E9A => ['A']
    | 0xFB00 => ['F', 'F']
    | 0xFB01 => ['F', 'I']
    | 0xFB02 => ['F', 'L']
    | 0xFB03 => ['F', 'F', 'I']
    | 0xFB04 => ['F', 'F', 'L']
    | 0xFB05 => ['S', 'T']
    | 0xFB06 => ['S', 'T']
    | _ => []

end RpcForge.Text

/-!
# Blank characters

The characters of the Unicode property `White_Space`, and texts without the blanks at their ends.
-/

namespace RpcForge.Text

/-- Whether a character is white space in Unicode's sense. -/
def isBlank (c : Char) : Bool :=
  let n := c.toNat
  (9 ≤ n && n ≤ 13) || n == 0x20 || n == 0x85 || n == 0xA0 || n == 0x1680 ||
    (0x2000 ≤ n && n ≤ 0x200A) || n == 0x2028 || n == 0x2029 || n == 0x202F || n == 0x205F ||
    n == 0x3000

/-- Characters without the blanks in front. -/
def dropBlanks (cs : List Char) : List Char :=
  cs.dropWhile isBlank

/-- Characters without the blanks at the end. -/
def dropBlanksRight (cs : List Char) : List Char :=
  (dropBlanks cs.reverse).reverse

/-- A text without the blanks in front. -/
def trimStart (text : String) : String :=
  String.ofList (dropBlanks text.toList)

/-- A text without the blanks at the end. -/
def trimEnd (text : String) : String :=
  String.ofList (dropBlanksRight text.toList)

/-- A text without the blanks at either end. -/
def trim (text : String) : String :=
  String.ofList (dropBlanksRight (dropBlanks text.toList))

/-- Whether a text has no character but blanks. -/
def isBlankText (text : String) : Bool :=
  text.toList.all isBlank

end RpcForge.Text

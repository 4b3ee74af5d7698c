import RpcForge.Text.HiddenRanges
import RpcForge.Text.Letter

/-!
# Quoted texts

Two ways to write a text between double quotes. `quote` writes it as JSON does, which is also how a
string literal is written in generated sources. `quoteVisibly` is for messages: it leaves nothing
hidden, so it also escapes what would not show on a page.
-/

namespace RpcForge.Text

/-- The hexadecimal digits of a number, with zeros in front up to the given width. -/
def hexDigits (width n : Nat) : List Char :=
  let digits := Nat.toDigits 16 n
  List.replicate (width - digits.length) '0' ++ digits

/-- How one character is written inside a JSON string: the quote, the backslash and the controls are
escaped, and everything else stands for itself. -/
def jsonEscape (c : Char) : List Char :=
  if c = '"' then ['\\', '"']
  else if c = '\\' then ['\\', '\\']
  else if c = '\x08' then ['\\', 'b']
  else if c = '\x0c' then ['\\', 'f']
  else if c = '\n' then ['\\', 'n']
  else if c = '\r' then ['\\', 'r']
  else if c = '\t' then ['\\', 't']
  else if c.toNat < 0x20 then ['\\', 'u'] ++ hexDigits 4 c.toNat
  else [c]

/-- A text as a JSON string. -/
def quote (text : String) : String :=
  String.ofList ('"' :: text.toList.flatMap jsonEscape ++ ['"'])

/-- Whether a character leaves no mark of its own on a page. -/
def isHidden (c : Char) : Bool :=
  if isAscii c then c.toNat < 0x20 || c.toNat == 0x7F else inRanges HiddenRanges.hidden c.toNat

/-- How one character is written in a message: the quote, the backslash, the usual controls and the
null character have short escapes, and hidden characters are written as their code points. -/
def visibleEscape (c : Char) : List Char :=
  if c = '"' then ['\\', '"']
  else if c = '\\' then ['\\', '\\']
  else if c = '\x00' then ['\\', '0']
  else if c = '\n' then ['\\', 'n']
  else if c = '\r' then ['\\', 'r']
  else if c = '\t' then ['\\', 't']
  else if isHidden c then ['\\', 'u', '{'] ++ hexDigits 1 c.toNat ++ ['}']
  else [c]

/-- A text between double quotes in which every character shows. -/
def quoteVisibly (text : String) : String :=
  String.ofList ('"' :: text.toList.flatMap visibleEscape ++ ['"'])

end RpcForge.Text

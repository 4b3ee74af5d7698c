/-!
# Pieces of a text

Cutting a text at a character, cutting it into lines, and putting other text in place of a part.
-/

namespace RpcForge.Text

/-- The stretches between the characters that satisfy a test; there is one more of them than of such
characters, and some may be empty. -/
def piecesBy (isCut : Char → Bool) : List Char → List (List Char)
  | [] => [[]]
  | c :: cs =>
    if isCut c then [] :: piecesBy isCut cs
    else match piecesBy isCut cs with
      | [] => [[c]]
      | piece :: rest => (c :: piece) :: rest

/-- The stretches of a text between the occurrences of a character. -/
def pieces (separator : Char) (text : String) : List String :=
  (piecesBy (· == separator) text.toList).map String.ofList

/-- What stands before and after the first occurrence of a character. -/
def cut? (separator : Char) (text : String) : Option (String × String) :=
  match text.toList.span (· != separator) with
  | (before, _ :: after) => some (String.ofList before, String.ofList after)
  | (_, []) => none

/-- What stands after the last occurrence of a character, or the whole text where there is none. -/
def afterLast (separator : Char) (text : String) : String :=
  String.ofList (text.toList.reverse.takeWhile (· != separator)).reverse

/-- What stands after a given beginning. -/
def stripPrefix? (start text : String) : Option String :=
  if start.toList.isPrefixOf text.toList then
    some (String.ofList (text.toList.drop start.toList.length))
  else none

/-- Whether a text begins with another one. -/
def startsWith (text start : String) : Bool :=
  start.toList.isPrefixOf text.toList

/-- Whether a character occurs in a text. -/
def hasChar (text : String) (c : Char) : Bool :=
  text.toList.contains c

/-- Whether one list of characters occurs in another as a stretch. -/
def occursIn (part : List Char) : List Char → Bool
  | [] => part.isEmpty
  | c :: cs => part.isPrefixOf (c :: cs) || occursIn part cs

/-- Whether one text occurs in another. -/
def hasPart (text part : String) : Bool :=
  occursIn part.toList text.toList

/-- Drop a carriage return at the end of a line. -/
def dropReturn (line : List Char) : List Char :=
  if line.getLast? = some '\r' then line.dropLast else line

/-- Lines of the rest of a text, where `line` holds the current line backwards. -/
def linesFrom (line : List Char) : List Char → List (List Char)
  | [] => if line.isEmpty then [] else [line.reverse]
  | c :: cs =>
    if c = '\n' then dropReturn line.reverse :: linesFrom [] cs else linesFrom (c :: line) cs

/-- The lines of a text. A line ends at a line feed, together with a carriage return right before
it; after the last line feed there is a further line only if some character follows. -/
def lines (text : String) : List String :=
  (linesFrom [] text.toList).map String.ofList

/-- Put `new` in place of every occurrence of `old`, from left to right; `skip` characters still
belong to the last occurrence. -/
def replaceFrom (old new : List Char) : Nat → List Char → List Char
  | _, [] => []
  | skip + 1, _ :: cs => replaceFrom old new skip cs
  | 0, c :: cs =>
    if old.isPrefixOf (c :: cs) then new ++ replaceFrom old new (old.length - 1) cs
    else c :: replaceFrom old new 0 cs

/-- Put one text in place of every occurrence of another one, from left to right. An occurrence ends
before the next one starts, and the new text is not searched again. -/
def replace (text old new : String) : String :=
  if old.isEmpty then text
  else String.ofList (replaceFrom old.toList new.toList 0 text.toList)

end RpcForge.Text

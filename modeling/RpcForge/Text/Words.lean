import RpcForge.Text.Letter
import RpcForge.Text.Pieces

/-!
# Words of a name

A name is cut into words at every character that is neither letter nor number, and inside a run of
letters and numbers where the case shows a new word: between a lower-case letter and an upper-case
one, and before the last of several upper-case letters that a lower-case one follows. The words are
then joined in one of four casings, of which only the ASCII characters are kept.
-/

namespace RpcForge.Text

/-- Case of the last letter with a case in the current word. -/
inductive WordCase where
  /-- The word has no such letter yet, or it has just been cut off from the one before. -/
  | none
  /-- The last one is a lower-case letter. -/
  | lower
  /-- The last one is an upper-case letter. -/
  | upper
deriving DecidableEq, Repr

/-- The case after one more character; one without a case changes nothing. -/
def WordCase.after (case : WordCase) (c : Char) : WordCase :=
  if isLowercase c then .lower else if isUppercase c then .upper else case

/-- Words of a run of letters and numbers, where `word` is what the current word holds so far. -/
def wordsOfRun (case : WordCase) (word : List Char) : List Char → List (List Char)
  | [] => []
  | [c] => [word ++ [c]]
  | c :: d :: rest =>
    if case.after c = .lower ∧ isUppercase d then
      (word ++ [c]) :: wordsOfRun .none [] (d :: rest)
    else if case = .upper ∧ isUppercase c ∧ isLowercase d then
      word :: wordsOfRun .none [c] (d :: rest)
    else
      wordsOfRun (case.after c) (word ++ [c]) (d :: rest)

/-- The words of a name. -/
def words (name : List Char) : List (List Char) :=
  (piecesBy (fun c ↦ !isAlphanumeric c) name).flatMap (wordsOfRun .none [])

/-- A word in lower case. -/
def loweredWord (word : List Char) : List Char :=
  word.flatMap lowered

/-- A word in upper case. -/
def upperedWord (word : List Char) : List Char :=
  word.flatMap uppered

/-- A word with its first character in upper case and the others in lower case. -/
def capitalizedWord : List Char → List Char
  | [] => []
  | c :: cs => uppered c ++ loweredWord cs

/-- Words with nothing between them, each capitalized. -/
def joinPascal (words : List (List Char)) : List Char :=
  words.flatMap capitalizedWord

/-- Words with nothing between them, all but the first one capitalized. -/
def joinCamel : List (List Char) → List Char
  | [] => []
  | word :: words => loweredWord word ++ joinPascal words

/-- Words in lower case with underscores between them. -/
def joinSnake (words : List (List Char)) : List Char :=
  ['_'].intercalate (words.map loweredWord)

/-- Words in upper case with underscores between them. -/
def joinShouty (words : List (List Char)) : List Char :=
  ['_'].intercalate (words.map upperedWord)

end RpcForge.Text

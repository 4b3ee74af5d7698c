import RpcForge.Text.Pieces

/-!
# File trees

The files and directories that a run works on, as a value. A path is text, and the place it leads to
is found piece by piece: every directory on the way has to be there, also where the path leaves it
again. So `x/../y` leads nowhere as long as `x` is missing. Paths start from the working directory,
which is there from the start, as are the directories around it and the root.
-/

namespace RpcForge

/-- Why an operation on files fails. -/
inductive FileError where
  /-- There is nothing under the path. -/
  | notFound
  /-- There is something else under the path. -/
  | alreadyExists
  /-- A part of the path is a file. -/
  | notADirectory
  /-- A directory lies under the path. -/
  | isADirectory
  /-- The path or a name in it is too long. -/
  | nameTooLong
  /-- The path has a null character in it. -/
  | nullCharacter
deriving DecidableEq, Repr

/-- The message of an error. -/
def FileError.message : FileError → String
  | .notFound => "No such file or directory (os error 2)"
  | .alreadyExists => "File exists (os error 17)"
  | .notADirectory => "Not a directory (os error 20)"
  | .isADirectory => "Is a directory (os error 21)"
  | .nameTooLong => "File name too long (os error 36)"
  | .nullCharacter => "file name contained an unexpected NUL byte"

/-- The text of a path that goes on from another one. -/
def joinPaths (start path : String) : String :=
  if start.isEmpty || Text.startsWith path "/" then path
  else if start.toList.getLast? = some '/' then start ++ path
  else start ++ "/" ++ path

/-- A place: the names of the directories that lead to it, and its own. The first of them are `..`
in a place outside the working directory, and the first is `/` in a place that is told from the
root. -/
abbrev FilePath := List String

namespace FilePath

/-- The place that a path starts from. -/
def start (text : String) : FilePath :=
  if Text.startsWith text "/" then ["/"] else []

/-- The directory that a place lies in. The root lies in itself. -/
def parent (place : FilePath) : FilePath :=
  match place.getLast? with
  | none => [".."]
  | some ".." => place ++ [".."]
  | some "/" => place
  | some _ => place.dropLast

/-- Whether a place is the working directory, one of those around it, or the root. -/
def isGiven (place : FilePath) : Bool :=
  place == ["/"] || place.all (· == "..")

/-- Whether a place lies in another or is the same. -/
def isWithin (place directory : FilePath) : Bool :=
  directory.isPrefixOf place

/-- Whether a place lies below the working directory. -/
def isInside (place : FilePath) : Bool :=
  place.head? != some ".." && place.head? != some "/"

/-- The greatest length of a name in bytes. -/
def nameLimit : Nat := 255

/-- The greatest length of a path in bytes. -/
def pathLimit : Nat := 4095

/-- A path that can lead somewhere is not empty nor too long and has no null character in it. -/
def check (text : String) : Except FileError Unit :=
  if text.toList.contains '\x00' then .error .nullCharacter
  else if text.isEmpty then .error .notFound
  else if pathLimit < text.utf8ByteSize then .error .nameTooLong
  else .ok ()

/-- Whether a piece of a path leads on from a directory. An empty piece and a point stay in it. -/
def leadsOn (piece : String) : Bool :=
  !piece.isEmpty && piece != "."

end FilePath

/-- Files with their contents, and directories. -/
structure FileTree where
  /-- The files, each under its place. -/
  files : List (FilePath × String) := []
  /-- The places of the directories, without those that are given. -/
  directories : List FilePath := []
deriving DecidableEq, Repr, Inhabited

namespace FileTree

/-- The contents of the file in a place. -/
def get? (tree : FileTree) (place : FilePath) : Option String :=
  tree.files.lookup place

/-- Whether a file lies in a place. -/
def isFile (tree : FileTree) (place : FilePath) : Bool :=
  (tree.get? place).isSome

/-- Whether a directory lies in a place. -/
def isDirectory (tree : FileTree) (place : FilePath) : Bool :=
  place.isGiven || tree.directories.contains place

/-- Whether something lies in a place. -/
def isThere (tree : FileTree) (place : FilePath) : Bool :=
  tree.isFile place || tree.isDirectory place

/-- Go on from a place, which has to be a directory, by one piece of a path. -/
def step (tree : FileTree) (place : FilePath) (piece : String) : Except FileError FilePath :=
  if tree.isFile place then .error .notADirectory
  else if !tree.isDirectory place then .error .notFound
  else if !FilePath.leadsOn piece then .ok place
  else if piece == ".." then .ok place.parent
  else if FilePath.nameLimit < piece.utf8ByteSize then .error .nameTooLong
  else .ok (place ++ [piece])

/-- The place that the pieces of a path lead to from a place. Nothing needs to lie there. -/
def follow (tree : FileTree) (place : FilePath) (pieces : List String) :
    Except FileError FilePath :=
  pieces.foldlM tree.step place

/-- The place that a path leads to. Nothing needs to lie there. -/
def resolve (tree : FileTree) (text : String) : Except FileError FilePath := do
  FilePath.check text
  tree.follow (.start text) (Text.pieces '/' text)

/-- Whether a path leads to something. -/
def holds (tree : FileTree) (text : String) : Bool :=
  match tree.resolve text with
  | .ok place => tree.isThere place
  | .error _ => false

/-- The contents of the file that a path leads to. -/
def read (tree : FileTree) (text : String) : Except FileError String := do
  let place ← tree.resolve text
  match tree.get? place with
  | some contents => .ok contents
  | none => .error (if tree.isDirectory place then .isADirectory else .notFound)

/-- A tree without what lies in a place and below it. -/
def without (tree : FileTree) (directory : FilePath) : FileTree where
  files := tree.files.filter fun file ↦ !file.1.isWithin directory
  directories := tree.directories.filter fun place ↦ !place.isWithin directory

/-- Remove the directory that a path leads to with all that is in it. -/
def removeDirectory (tree : FileTree) (text : String) : Except FileError FileTree := do
  let place ← tree.resolve text
  if tree.isFile place then .error .notADirectory
  else if !tree.isDirectory place then .error .notFound
  else .ok (tree.without place)

/-- Make the directory that pieces of a path lead to. -/
def makeDirectory (tree : FileTree) (start : FilePath) (pieces : List String) :
    Except FileError FileTree := do
  let place ← tree.follow start pieces
  if tree.isThere place then .error .alreadyExists
  else .ok { tree with directories := tree.directories ++ [place] }

/-- Whether pieces of a path lead to a directory. -/
def leadsToDirectory (tree : FileTree) (start : FilePath) (pieces : List String) : Bool :=
  match tree.follow start pieces with
  | .ok place => tree.isDirectory place
  | .error _ => false

/-- Make the directory that pieces of a path lead to, unless it is there. -/
def ensureDirectory (tree : FileTree) (start : FilePath) (pieces : List String) :
    Except FileError FileTree :=
  match tree.makeDirectory start pieces with
  | .ok tree => .ok tree
  | .error e => if tree.leadsToDirectory start pieces then .ok tree else .error e

/-- Make the directory that pieces of a path, told from the last one, lead to. Where a directory
on the way is missing, those that lead to it are made first, and they stay also if the last one
fails. -/
def ensureDirectories (tree : FileTree) (start : FilePath) :
    List String → FileTree × Except FileError Unit
  | [] => (tree, .ok ())
  | piece :: outer =>
    match tree.ensureDirectory start (piece :: outer).reverse with
    | .ok tree => (tree, .ok ())
    | .error .notFound =>
      match tree.ensureDirectories start outer with
      | (tree, .error e) => (tree, .error e)
      | (tree, .ok ()) =>
        match tree.ensureDirectory start (piece :: outer).reverse with
        | .ok tree => (tree, .ok ())
        | .error e => (tree, .error e)
    | .error e => (tree, .error e)

/-- Make the directory that a path leads to, and those on the way, where they are missing. The empty
path stands for the working directory. -/
def makeDirectories (tree : FileTree) (text : String) : FileTree × Except FileError Unit :=
  if text.isEmpty then (tree, .ok ())
  else match FilePath.check text with
    | .error e => (tree, .error e)
    | .ok () =>
      tree.ensureDirectories (.start text)
        ((Text.pieces '/' text).filter FilePath.leadsOn).reverse

/-- Put contents into a place. -/
def put (tree : FileTree) (place : FilePath) (contents : String) : FileTree :=
  { tree with files := tree.files.filter (·.1 != place) ++ [(place, contents)] }

/-- Write the file that a path leads to. -/
def write (tree : FileTree) (text contents : String) : Except FileError FileTree := do
  let place ← tree.resolve text
  if tree.isDirectory place then .error .isADirectory else .ok (tree.put place contents)

/-- Write the file that a path leads to, and make the directories on the way before. If it cannot be
written, it is left out. -/
def plant (tree : FileTree) (text contents : String) : FileTree :=
  let (tree, _) := tree.makeDirectories ("/".intercalate (Text.pieces '/' text).dropLast)
  (tree.write text contents).toOption.getD tree

/-- The paths of the files below the working directory with their contents, in the order of their
characters. -/
def listing (tree : FileTree) : List (String × String) :=
  ((tree.files.filter fun file ↦ file.1.isInside).map fun file ↦
    ("/".intercalate file.1, file.2)).mergeSort fun a b ↦ a.1 ≤ b.1

end FileTree

end RpcForge

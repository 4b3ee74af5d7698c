import RpcForge.Document.Error
import RpcForge.Text.Blank
import RpcForge.Text.Pieces

/-!
# Well-formed texts

The rules for single texts of a document: addresses, versions, names and keys, and the rule that the
keys of a list differ.
-/

namespace RpcForge.Wellformed

open RpcForge.Text

/-- An address has a scheme, or it is an absolute path, or it begins with `localhost`. -/
def checkUrl (url : String) : Check :=
  if url.isEmpty then .error (.invalidUrl "URL cannot be empty")
  else if hasPart url "://" || startsWith url "/" || startsWith url "localhost" then .pass
  else .error (.invalidUrl url)

/-- A mail address has something on both sides of its first `@`, and a point behind it. -/
def checkEmail (email : String) : Check :=
  match cut? '@' email with
  | some (account, domain) =>
    if account.isEmpty || domain.isEmpty || !hasChar domain '.' then .error (.invalidEmail email)
    else .pass
  | none => .error (.invalidEmail email)

/-- Whether a text is a number below `2 ^ 32` in decimal digits; a plus may stand in front. -/
def isVersionNumber (text : String) : Bool :=
  let digits := match text.toList with
    | '+' :: cs => cs
    | cs => cs
  !digits.isEmpty && digits.all Char.isDigit &&
    digits.foldl (fun n c ↦ 10 * n + (c.toNat - '0'.toNat)) 0 < Nat.pow 2 32

/-- A version has two parts or more between points, and the first two are numbers. -/
def checkVersion (version : String) : Check :=
  if version.isEmpty then .broken "Version cannot be empty"
  else match pieces '.' version with
    | major :: minor :: _ =>
      if !isVersionNumber major then .broken ("Invalid major version component: " ++ major)
      else if !isVersionNumber minor then .broken ("Invalid minor version component: " ++ minor)
      else .pass
    | _ => .broken ("Invalid version format: " ++ version)

/-- The newest version of the document format. -/
def currentVersion : String := "1.3.2"

/-- The versions of the document format that are supported. -/
def supportedVersions : List String :=
  ["1.0.0", "1.0.0-rc1", "1.1.0", "1.2.0", "1.2.1", "1.2.2", "1.2.3", "1.2.4", "1.2.5", "1.2.6",
    "1.3.0", "1.3.1", "1.3.2"]

/-- Whether a version of the document format is supported. -/
def isSupported (version : String) : Bool :=
  supportedVersions.contains version

/-- A document has a version of the format that is supported. -/
def checkFormatVersion (version : String) : Check :=
  .first [checkVersion version,
    if isSupported version then .pass else .error (.unsupportedVersion version)]

/-- Whether a character may stand in the key of a component. -/
def isKeyChar (c : Char) : Bool :=
  c.isAlphanum || c == '.' || c == '-' || c == '_'

/-- The key of a component is made of letters, digits, points, hyphens and underscores. -/
def checkComponentKey (key : String) : Check :=
  if key.isEmpty then .broken "Component key cannot be empty"
  else match key.toList.find? (fun c ↦ !isKeyChar c) with
    | some c =>
      .broken ("Invalid component key character '" ++ c.toString ++ "' in key '" ++ key ++ "'")
    | none => .pass

/-- The name of a method is not empty, has no blanks, and begins with `rpc.` only if it is the name
of the method that is reserved for discovery. -/
def checkMethodName (name : String) : Check :=
  if name.isEmpty then .broken "Method name cannot be empty"
  else if name.toList.any isBlank then
    .broken ("Method name '" ++ name ++ "' cannot contain whitespace")
  else if startsWith name "rpc." && name != "rpc.discover" then
    .broken ("Method name '" ++ name ++ "' uses reserved 'rpc.' prefix")
  else .pass

/-- The name of a content descriptor is not empty and has no blanks. -/
def checkDescriptorName (name : String) : Check :=
  if name.isEmpty then .broken "Content descriptor name cannot be empty"
  else if name.toList.any isBlank then
    .broken ("Content descriptor name '" ++ name ++ "' cannot contain whitespace")
  else .pass

/-- The first key that stands further in front already, after the keys `seen` so far. -/
def firstRepeated? (seen : List String) : List String → Option String
  | [] => none
  | key :: rest => if seen.contains key then some key else firstRepeated? (key :: seen) rest

/-- The keys of a list differ. -/
def checkDistinct (context : String) (keys : List String) : Check :=
  match firstRepeated? [] keys with
  | some key => .error (.duplicateKey key context)
  | none => .pass

end RpcForge.Wellformed

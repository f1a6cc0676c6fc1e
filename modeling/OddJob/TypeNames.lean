import OddJob.Lib.Text

/-! `UnversionedTypeSerializer` and `TargetPlatformHelpers`: assembly references
lose their version parts, and the core library is written as a marker. -/

namespace OddJob

/-- The class `\s` of .NET regular expressions. -/
def isSpace (symbol : Char) : Bool :=
  let code := symbol.toNat
  (9 ≤ code && code ≤ 13) || code == 32 || code == 0x85 || code == 0xA0 || code == 0x1680 ||
    (0x2000 ≤ code && code ≤ 0x200A) || code == 0x2028 || code == 0x2029 || code == 0x202F ||
    code == 0x205F || code == 0x3000

def isTokenSymbol (symbol : Char) : Bool :=
  symbol.isAlphanum || symbol == '_'

def dropWord : List Char → List Char → Option (List Char)
  | [], text => some text
  | expected :: word, symbol :: text => if symbol = expected then dropWord word text else none
  | _ :: _, [] => none

def dropSpace : List Char → Option (List Char)
  | symbol :: text => if isSpace symbol then some text else none
  | [] => none

/-- `_assemblyRegex` tried at one position; the result is what follows the match.
Each repetition ends where its class does, because the pattern continues with a
symbol outside the class, so matching needs no backtracking:
`\S*\s` takes a whole run of non-spaces, and `\S*,\s` one that ends in a comma. -/
def matchAssembly (text : List Char) : Option (List Char) := do
  let text ← dropWord [','] text
  let text ← dropWord "Version=".toList (text.dropWhile isSpace)
  let text ← dropSpace (text.dropWhile (!isSpace ·))
  let text ← dropWord "Culture".toList text
  let culture := text.takeWhile (!isSpace ·)
  let text ← dropSpace (text.dropWhile (!isSpace ·))
  if culture.getLast? = some ',' then
    let text ← dropWord "PublicKeyToken=".toList text
    return text.dropWhile isTokenSymbol
  else none

/-- `_assemblyRegex.Replace(text, "")`, with `skip` symbols left of the last match. -/
def removeVersionsFrom : Nat → List Char → List Char
  | _, [] => []
  | skip + 1, _ :: rest => removeVersionsFrom skip rest
  | 0, symbol :: rest =>
    match matchAssembly (symbol :: rest) with
    | some after => removeVersionsFrom (rest.length - after.length) rest
    | none => symbol :: removeVersionsFrom 0 rest

def removeVersions (name : List Char) : List Char :=
  removeVersionsFrom 0 name

namespace TargetPlatformHelpers

def coreLibString : List Char := "%coretarget%".toList

/-- `fullName` is `typeof(string).Assembly.FullName`. -/
def getCoreAssemblyName (fullName : List Char) : List Char :=
  removeVersions fullName

def replaceCoreTypes (fullName typeString : List Char) : List Char :=
  Text.replaceAll coreLibString (getCoreAssemblyName fullName) typeString

end TargetPlatformHelpers

open TargetPlatformHelpers

/-- `UnversionedTypeSerializer.GetTypeName` of a type with this assembly-qualified
name, or of no type. -/
def getTypeName (fullName : List Char) : Option (List Char) → List Char
  | some assemblyQualifiedName =>
    Text.replaceAll (getCoreAssemblyName fullName) coreLibString
      (removeVersions assemblyQualifiedName)
  | none => []

/-- How the marker begins. No type lives in an assembly of such a name. -/
def coreLibStart : List Char := "%coretarget".toList

/-- On one platform the decoder undoes the marker of the encoder. -/
theorem replaceCoreTypes_getTypeName {fullName name : List Char}
    (named : getCoreAssemblyName fullName ≠ [])
    (clean : ¬ coreLibStart <:+: removeVersions name) :
    replaceCoreTypes fullName (getTypeName fullName (some name)) = removeVersions name :=
  Text.replaceAll_restore named (by decide) clean

/-- A name that mentions the core assembly is written with the marker. -/
theorem coreLibStart_infix_getTypeName {fullName name : List Char}
    (named : getCoreAssemblyName fullName ≠ [])
    (mentions : getCoreAssemblyName fullName <:+: removeVersions name) :
    coreLibStart <:+: getTypeName fullName (some name) := by
  have marked : coreLibString <:+: getTypeName fullName (some name) :=
    Text.infix_replaceAll named mentions
  exact List.IsInfix.trans (List.IsPrefix.isInfix (by decide)) marked

theorem getTypeName_of_not_mentioned {fullName name : List Char}
    (foreign : ¬ getCoreAssemblyName fullName <:+: removeVersions name) :
    getTypeName fullName (some name) = removeVersions name :=
  Text.replaceAll_of_not_infix foreign

end OddJob

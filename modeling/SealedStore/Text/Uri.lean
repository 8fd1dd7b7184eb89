/-!
# Addresses of services

An address is a scheme, an authority and a path with its query; a fragment behind them is not looked
at. An authority may stand alone, and so may a path or an asterisk in its place. With a scheme there
is an authority.
-/

namespace SealedStore

/-- An address. -/
structure Uri where
  scheme? : Option String
  authority : String
  path : String
  deriving DecidableEq, Repr

namespace Uri

/-- Why a text is no address. -/
inductive Defect where
  | empty
  | tooLong
  | schemeTooLong
  /-- A character stands where it may not. -/
  | character
  /-- The authority is not well formed. -/
  | authority
  /-- The parts do not make an address. -/
  | format
  deriving DecidableEq, Repr

/-- The wording of a defect. -/
def Defect.message : Defect → String
  | .empty => "empty string"
  | .tooLong => "uri too long"
  | .schemeTooLong => "scheme too long"
  | .character => "invalid uri character"
  | .authority => "invalid authority"
  | .format => "invalid format"

/-- An address is at most so many bytes long. -/
def maxLength : Nat := 65534

/-- A scheme is at most so many characters long. -/
def maxSchemeLength : Nat := 64

/-- At most so many colons follow each other in an authority; an address of numbers has no more. -/
def maxColons : Nat := 8

/-! ## Schemes -/

/-- Whether a character may stand in a scheme. -/
def isSchemeChar (char : Char) : Bool :=
  char.isAlphanum || ['+', '-', '.', '~'].contains char

/-- The scheme at the beginning, and what follows its mark. -/
def splitScheme (text : List Char) : Except Defect (Option (List Char) × List Char) :=
  match text.span isSchemeChar with
  | (name, ':' :: '/' :: '/' :: rest) =>
      if maxSchemeLength < name.length then .error .schemeTooLong else .ok (some name, rest)
  | _ => .ok (none, text)

/-! ## Authorities -/

/-- Whether an authority ends before this character. -/
def endsAuthority (char : Char) : Bool :=
  char == '/' || char == '?' || char == '#'

/-- Whether a character may stand in an authority for itself. -/
def isAuthorityChar (char : Char) : Bool :=
  char.isAlphanum ||
    ['!', '$', '&', '\'', '(', ')', '*', '+', ',', '-', '.', ';', '=', '_', '~'].contains char

/-- What has been seen of an authority: the colons, the percent sign and the brackets that may be
those of a host. -/
structure Seen where
  colons : Nat
  percent : Bool
  opened : Bool
  closed : Bool

/-- Nothing has been seen. -/
def Seen.nothing : Seen :=
  ⟨0, false, false, false⟩

/-- What has been seen after one more character. A sign `@` says that all before it was the user's
name, and a closing bracket ends an address of numbers: colons and percent signs in those are
forgotten. -/
def Seen.next (seen : Seen) (char : Char) : Except Defect Seen :=
  match char with
  | ':' =>
      if maxColons ≤ seen.colons then .error .authority
      else .ok { seen with colons := seen.colons + 1 }
  | '[' =>
      if seen.percent || seen.opened then .error .authority else .ok { seen with opened := true }
  | ']' =>
      if !seen.opened || seen.closed then .error .authority
      else .ok { seen with colons := 0, percent := false, closed := true }
  | '@' => .ok { seen with colons := 0, percent := false }
  | '%' => .ok { seen with percent := true }
  | _ => if isAuthorityChar char then .ok seen else .error .character

/-- Checks an authority: one colon at most, before the port, no percent sign, brackets in pairs, and
a host behind the user's name. -/
def checkAuthority (text : List Char) : Except Defect Unit := do
  let seen ← text.foldlM Seen.next Seen.nothing
  if seen.opened ≠ seen.closed ∨ 1 < seen.colons ∨ text.getLast? = some '@' ∨ seen.percent then
    .error .authority
  else .ok ()

/-! ## Paths -/

/-- Whether a character may stand in a path. Quotes and braces may, as they are often sent
unescaped. -/
def isPathChar (char : Char) : Bool :=
  '!' ≤ char && char ≤ '~' && !(['#', '<', '>', '?', '`'].contains char)

/-- Whether a character may stand in a query. -/
def isQueryChar (char : Char) : Bool :=
  '!' ≤ char && char ≤ '~' && !(['"', '#', '<', '>'].contains char)

/-- Checks a path with its query. -/
def checkPath (text : List Char) : Except Defect Unit :=
  match text.span fun char ↦ char ≠ '?' with
  | (path, query) =>
      if path.all isPathChar && (query.drop 1).all isQueryChar then .ok () else .error .character

/-- A path with its query, without a fragment. -/
def readPath (text : List Char) : Except Defect String := do
  let kept := text.takeWhile (· ≠ '#')
  checkPath kept
  return String.ofList kept

/-! ## Addresses -/

/-- The address of some characters. -/
def readChars (text : List Char) : Except Defect Uri := do
  let (scheme?, rest) ← splitScheme text
  let (authority, path) := rest.span fun char ↦ !endsAuthority char
  checkAuthority authority
  match scheme? with
  | none =>
      if path ≠ [] then .error .format else .ok ⟨none, String.ofList authority, ""⟩
  | some scheme =>
      if authority = [] then .error .format
      else
        let path ← readPath path
        return ⟨some (String.ofList scheme), String.ofList authority, path⟩

/-- The address that a text is. -/
def read (text : String) : Except Defect Uri :=
  if maxLength < text.utf8ByteSize then .error .tooLong
  else
    match text.toList with
    | [] => .error .empty
    | ['?'] | ['#'] => .error .character
    | ['*'] => .ok ⟨none, "", "*"⟩
    | '/' :: rest => do return ⟨none, "", ← readPath ('/' :: rest)⟩
    | chars => readChars chars

end Uri

end SealedStore

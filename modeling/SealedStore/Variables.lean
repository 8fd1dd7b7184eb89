import SealedStore.Text.Decimal

/-!
# Variables and what they give

A variable is meant for the setting that its name spells in any case, and gives it a text. The name
may go on behind the setting's name, as a path: with the name of an entry behind a dot, or with a
place in brackets. Such a variable makes the setting a table of entries, or a list. A name that is
not such a path from its beginning to its end counts as a whole.
-/

namespace SealedStore

/-- What variables give for a setting. -/
inductive Given where
  | text (value : String)
  /-- A table, known by the names of its entries. -/
  | table (entries : List String)
  | list
  deriving DecidableEq, Repr

namespace Variables

/-- A character in lower case. Outside ASCII only the Kelvin sign has an ASCII letter for its lower
case. -/
def lowerChar (char : Char) : Char :=
  if char = '\u212a' then 'k' else char.toLower

/-- A text in lower case, as far as names of the settings can tell. -/
def lower (text : String) : String :=
  String.ofList (text.toList.map lowerChar)

/-- A step of a path. -/
inductive Step where
  /-- To an entry of a table. -/
  | entry (name : String)
  /-- To a place in a list. -/
  | place
  deriving DecidableEq

/-- Whether a character may stand in the names of a path. -/
def isNameChar (char : Char) : Bool :=
  char.isAlphanum || ['_', '-', ' '].contains char

/-- Whether a character may stand around the number in brackets. -/
def isSpace (char : Char) : Bool :=
  char = ' ' || char = '\t'

/-- What follows a number and the bracket behind it. The number has 64 bits with its sign. -/
def afterPlace? (text : List Char) : Option (List Char) :=
  let (bound, unsigned) := match text.dropWhile isSpace with
    | '-' :: rest => (0x8000000000000000, rest)
    | rest => (0x7fffffffffffffff, rest)
  let (digits, rest) := unsigned.span Char.isDigit
  match Decimal.read bound digits, rest.dropWhile isSpace with
  | .ok _, ']' :: rest => some rest
  | _, _ => none

/-- The step at the beginning, and what follows it. -/
def readStep? : List Char → Option (Step × List Char)
  | '.' :: text =>
      match text.span isNameChar with
      | ([], _) => none
      | (name, rest) => some (.entry (String.ofList name), rest)
  | '[' :: text => (afterPlace? text).map (.place, ·)
  | _ => none

/-- The steps that the characters spell, if there are not more than `count`. -/
def readSteps? : (count : Nat) → List Char → Option (List Step)
  | _, [] => some []
  | 0, _ :: _ => none
  | count + 1, text => do
      let (step, rest) ← readStep? text
      return step :: (← readSteps? count rest)

/-- The setting that a variable's name spells, and the first step from it. Each step takes
characters, so there are not more steps than characters. -/
def readName (name : String) : String × Option Step :=
  match (lower name).toList.span isNameChar with
  | ([], _) => (lower name, none)
  | (root, rest) =>
      match readSteps? rest.length rest with
      | some (step :: _) => (String.ofList root, some step)
      | _ => (lower name, none)

/-- What is given when one more variable of a setting has been seen. -/
def add (given? : Option Given) (value : String) : Option Step → Given
  | none => .text value
  | some .place => .list
  | some (.entry name) =>
      match given? with
      | some (.table entries) => .table (if name ∈ entries then entries else entries ++ [name])
      | _ => .table [name]

/-- What the variables of an environment give for a setting. Of several texts the last counts. -/
def lookup? (environment : List (String × String)) (setting : String) : Option Given :=
  environment.foldl
    (fun given? (name, value) ↦
      let (root, step?) := readName name
      if root = setting then some (add given? value step?) else given?)
    none

end Variables

end SealedStore

import SealedStore.Text.JsonObject

/-!
# The grammar of JSON objects with texts as values

What it is for characters to spell an object, said production by production and without a reader.
A spelling is not unique: space may stand between any two tokens, members may come in any order and
more than once, and most characters can be written in several ways.
-/

namespace SealedStore.JsonObject

/-! ## Strings -/

/-- Nothing but space between tokens. -/
def Space (chars : List Char) : Prop :=
  ∀ char ∈ chars, char = ' ' ∨ char = '\t' ∨ char = '\n' ∨ char = '\r'

/-- A digit to the base 16, small or capital, with its value. -/
def HexDigit (digit : Char) (value : Nat) : Prop :=
  "0123456789abcdef".toList[value]? = some digit ∨ "0123456789ABCDEF".toList[value]? = some digit

instance (digit : Char) (value : Nat) : Decidable (HexDigit digit value) :=
  inferInstanceAs (Decidable (_ ∨ _))

/-- Four digits to the base 16, with the number they spell. -/
inductive HexUnit : List Char → Nat → Prop
  | digits {a b c d : Char} {p q r s : Nat} (ha : HexDigit a p) (hb : HexDigit b q)
      (hc : HexDigit c r) (hd : HexDigit d s) :
      HexUnit [a, b, c, d] (0x1000 * p + 0x100 * q + 0x10 * r + s)

/-- A character that may follow a backslash, with the one that the two stand for. -/
inductive ShortEscape : Char → Char → Prop
  | quote : ShortEscape '"' '"'
  | backslash : ShortEscape '\\' '\\'
  | slash : ShortEscape '/' '/'
  | backspace : ShortEscape 'b' '\x08'
  | formFeed : ShortEscape 'f' '\x0c'
  | lineFeed : ShortEscape 'n' '\n'
  | carriageReturn : ShortEscape 'r' '\r'
  | tab : ShortEscape 't' '\t'

/-- One character as it may stand inside a string. No character has the number of a surrogate, so
surrogates can only come in pairs of a high and a low one. -/
inductive Element : List Char → Char → Prop
  | literal {char : Char} (hcontrol : 0x20 ≤ char.toNat) (hquote : char ≠ '"')
      (hbackslash : char ≠ '\\') : Element [char] char
  | short {letter char : Char} (hshort : ShortEscape letter char) : Element ['\\', letter] char
  | number {digits : List Char} {char : Char} (hunit : HexUnit digits char.toNat) :
      Element ('\\' :: 'u' :: digits) char
  | pair {first second : List Char} {high low : Nat} {char : Char} (hfirst : HexUnit first high)
      (hsecond : HexUnit second low) (hhigh : 0xd800 ≤ high ∧ high < 0xdc00)
      (hlow : 0xdc00 ≤ low ∧ low < 0xe000)
      (hchar : char.toNat = 0x10000 + 0x400 * (high - 0xd800) + (low - 0xdc00)) :
      Element ('\\' :: 'u' :: first ++ '\\' :: 'u' :: second) char

/-- The inside of a string, with the characters it stands for. -/
inductive Inside : List Char → List Char → Prop
  | nil : Inside [] []
  | cons {spelled rest text : List Char} {char : Char} (hfirst : Element spelled char)
      (hrest : Inside rest text) : Inside (spelled ++ rest) (char :: text)

/-- A string in its quotes. -/
inductive Quoted : List Char → String → Prop
  | quotes {inner : List Char} {text : String} (hinner : Inside inner text.toList) :
      Quoted ('"' :: inner ++ ['"']) text

/-! ## Objects -/

/-- A member: a key and a value, with a colon between them. -/
inductive Member : List Char → String × String → Prop
  | colon {left right before after : List Char} {key value : String} (hkey : Quoted left key)
      (hbefore : Space before) (hafter : Space after) (hvalue : Quoted right value) :
      Member (left ++ before ++ ':' :: after ++ right) (key, value)

/-- At least one member, in their order, with commas between them. -/
inductive Members : List Char → List (String × String) → Prop
  | last {before chars after : List Char} {member : String × String} (hbefore : Space before)
      (hmember : Member chars member) (hafter : Space after) :
      Members (before ++ chars ++ after) [member]
  | comma {before chars after rest : List Char} {member : String × String}
      {others : List (String × String)} (hbefore : Space before) (hmember : Member chars member)
      (hafter : Space after) (hrest : Members rest others) :
      Members (before ++ chars ++ after ++ ',' :: rest) (member :: others)

/-- An object, with its members in their order. -/
inductive Object : List Char → List (String × String) → Prop
  | empty {space : List Char} (hspace : Space space) : Object ('\x7b' :: space ++ ['\x7d']) []
  | braces {inner : List Char} {members : List (String × String)}
      (hmembers : Members inner members) : Object ('\x7b' :: inner ++ ['\x7d']) members

/-- The value of the last member with a key. -/
def lastValue? (key : String) (members : List (String × String)) : Option String :=
  (members.reverse.find? (·.1 = key)).map (·.2)

end SealedStore.JsonObject

import SealedStore.Text.Blank
import SealedStore.TextMap

/-!
# Maps written as JSON objects

A map of texts is written as one JSON object without space between its tokens, its keys in order.
Reading takes any spelling of such an object: space between tokens, any order, any escapes. Of
members with one key the last counts. What is not one object whose values are all strings has no
reading.
-/

namespace SealedStore.JsonObject

/-! ## Writing -/

/-- The digits of a number below 16. -/
def hexDigit (value : Nat) : Char :=
  if value < 10 then Char.ofNat (48 + value) else Char.ofNat (87 + value)

/-- A character inside a JSON string. -/
def escape (char : Char) : List Char :=
  match char with
  | '"' => ['\\', '"']
  | '\\' => ['\\', '\\']
  | '\x08' => ['\\', 'b']
  | '\x0c' => ['\\', 'f']
  | '\n' => ['\\', 'n']
  | '\r' => ['\\', 'r']
  | '\t' => ['\\', 't']
  | _ =>
      if char.toNat < 0x20 then
        ['\\', 'u', '0', '0', hexDigit (char.toNat / 16), hexDigit (char.toNat % 16)]
      else [char]

/-- A JSON string. -/
def renderString (text : String) : List Char :=
  '"' :: text.toList.flatMap escape ++ ['"']

/-- A member of a JSON object. -/
def renderMember (key value : String) : List Char :=
  renderString key ++ ':' :: renderString value

/-- The members of a JSON object, with commas between them. -/
def renderMembers : List (String × String) → List Char
  | [] => []
  | [(key, value)] => renderMember key value
  | (key, value) :: rest => renderMember key value ++ ',' :: renderMembers rest

/-- The JSON object of a map. -/
def render (map : TextMap String) : String :=
  String.ofList ('\x7b' :: renderMembers map.entries ++ ['\x7d'])

/-! ## Reading -/

/-- Whether a character is space between tokens. -/
def isSpace (char : Char) : Bool :=
  char = ' ' || char = '\t' || char = '\n' || char = '\r'

/-- What follows the space at the beginning. -/
def skipSpace (chars : List Char) : List Char :=
  chars.dropWhile isSpace

/-- The value of a digit to the base 16. -/
def hexValue? (char : Char) : Option Nat :=
  if '0' ≤ char ∧ char ≤ '9' then some (char.toNat - 48)
  else if 'a' ≤ char ∧ char ≤ 'f' then some (char.toNat - 87)
  else if 'A' ≤ char ∧ char ≤ 'F' then some (char.toNat - 55)
  else none

/-- The number that four digits to the base 16 spell, and what follows them. -/
def hexUnit? : List Char → Option (Nat × List Char)
  | a :: b :: c :: d :: rest => do
      let p ← hexValue? a
      let q ← hexValue? b
      let r ← hexValue? c
      let s ← hexValue? d
      some (((p * 16 + q) * 16 + r) * 16 + s, rest)
  | _ => none

/-- The character that a backslash and one more character stand for. -/
def shortEscape? (char : Char) : Option Char :=
  match char with
  | '"' => some '"'
  | '\\' => some '\\'
  | '/' => some '/'
  | 'b' => some '\x08'
  | 'f' => some '\x0c'
  | 'n' => some '\n'
  | 'r' => some '\r'
  | 't' => some '\t'
  | _ => none

/-- The character of a second half of a surrogate pair, given the first half. -/
def lowSurrogate? (first : Nat) : List Char → Option (Char × List Char)
  | '\\' :: 'u' :: rest => do
      let (second, rest) ← hexUnit? rest
      if 0xdc00 ≤ second ∧ second < 0xe000 then
        some (Char.ofNat (0x10000 + (first - 0xd800) * 0x400 + (second - 0xdc00)), rest)
      else none
  | _ => none

/-- The character of an escape by number, after its first two characters. Surrogates come in pairs
only. -/
def numberEscape? (chars : List Char) : Option (Char × List Char) := do
  let (unit, rest) ← hexUnit? chars
  if unit < 0xd800 ∨ 0xe000 ≤ unit then some (Char.ofNat unit, rest)
  else if unit < 0xdc00 then lowSurrogate? unit rest
  else none

/-- The first character that the inside of a string spells, and what follows it. -/
def element? : List Char → Option (Char × List Char)
  | '\\' :: 'u' :: rest => numberEscape? rest
  | '\\' :: char :: rest => (shortEscape? char).map fun meant ↦ (meant, rest)
  | char :: rest =>
      if char = '"' ∨ char = '\\' ∨ char.toNat < 0x20 then none else some (char, rest)
  | [] => none

theorem length_of_hexUnit? {chars rest : List Char} {unit : Nat}
    (hunit : hexUnit? chars = some (unit, rest)) : rest.length < chars.length := by
  unfold hexUnit? at hunit
  split at hunit
  next =>
    simp only [Option.bind_eq_bind, Option.bind_eq_some_iff, Option.some.injEq,
      Prod.mk.injEq] at hunit
    obtain ⟨_, _, _, _, _, _, _, _, _, rfl⟩ := hunit
    simp
    omega
  next => simp at hunit

theorem length_of_numberEscape? {chars rest : List Char} {char : Char}
    (hescape : numberEscape? chars = some (char, rest)) : rest.length < chars.length := by
  simp only [numberEscape?, Option.bind_eq_bind, Option.bind_eq_some_iff] at hescape
  obtain ⟨⟨unit, after⟩, hunit, hrest⟩ := hescape
  have hfirst := length_of_hexUnit? hunit
  dsimp only at hrest
  split at hrest
  next => simp_all
  next =>
    split at hrest
    next =>
      unfold lowSurrogate? at hrest
      split at hrest
      next =>
        simp only [Option.bind_eq_bind, Option.bind_eq_some_iff] at hrest
        obtain ⟨⟨second, later⟩, hsecond, hlast⟩ := hrest
        have hlater := length_of_hexUnit? hsecond
        dsimp only at hlast
        split at hlast
        next =>
          simp only [Option.some.injEq, Prod.mk.injEq] at hlast
          obtain ⟨_, rfl⟩ := hlast
          simp only [List.length_cons] at hfirst
          omega
        next => simp at hlast
      next => simp at hrest
    next => simp at hrest

/-- Reading a character takes at least one off. -/
theorem length_of_element? {chars rest : List Char} {char : Char}
    (helement : element? chars = some (char, rest)) : rest.length < chars.length := by
  unfold element? at helement
  split at helement
  next => have := length_of_numberEscape? helement; simp only [List.length_cons]; omega
  next =>
    obtain ⟨meant, _, heq⟩ := Option.map_eq_some_iff.mp helement
    cases heq
    simp only [List.length_cons]
    omega
  next =>
    split at helement
    next => simp at helement
    next => simp_all
  next => simp at helement

/-- What follows the closing quote, if that comes first. -/
def closing? : List Char → Option (List Char)
  | '"' :: rest => some rest
  | _ => none

/-- The text that the inside of a string spells up to its closing quote, and what follows that. -/
def stringBody? (chars : List Char) : Option (List Char × List Char) :=
  match _helement : element? chars with
  | some (char, rest) => (stringBody? rest).map fun (text, after) ↦ (char :: text, after)
  | none => (closing? chars).map fun rest ↦ ([], rest)
  termination_by chars.length
  decreasing_by exact length_of_element? _helement

/-- A string, and what follows it and the space after it. -/
def string? : List Char → Option (String × List Char)
  | '"' :: rest =>
      (stringBody? rest).map fun (text, after) ↦ (String.ofList text, skipSpace after)
  | _ => none

/-- A member of an object, and what follows it and the space after it. -/
def member? (chars : List Char) : Option ((String × String) × List Char) := do
  let (key, rest) ← string? chars
  match rest with
  | ':' :: rest =>
      let (value, rest) ← string? (skipSpace rest)
      some ((key, value), rest)
  | _ => none

theorem length_skipSpace_le (chars : List Char) : (skipSpace chars).length ≤ chars.length :=
  (List.dropWhile_sublist _).length_le

theorem length_of_closing? {chars rest : List Char} (hclosing : closing? chars = some rest) :
    rest.length < chars.length := by
  unfold closing? at hclosing
  split at hclosing
  next => simp_all
  next => simp at hclosing

theorem length_of_stringBody? {chars text rest : List Char}
    (hbody : stringBody? chars = some (text, rest)) : rest.length < chars.length := by
  induction hsize : chars.length using Nat.strongRecOn generalizing chars text with
  | ind size ih =>
      rw [stringBody?] at hbody
      split at hbody
      next char after helement =>
        obtain ⟨⟨inner, last⟩, hinner, heq⟩ := Option.map_eq_some_iff.mp hbody
        have hshorter := length_of_element? helement
        cases heq
        have hrest := ih after.length (by omega) hinner rfl
        omega
      next =>
        obtain ⟨last, hclosing, heq⟩ := Option.map_eq_some_iff.mp hbody
        cases heq
        have hshorter := length_of_closing? hclosing
        omega

theorem length_of_string? {chars rest : List Char} {text : String}
    (hstring : string? chars = some (text, rest)) : rest.length < chars.length := by
  unfold string? at hstring
  split at hstring
  next =>
    obtain ⟨⟨inner, after⟩, hinner, heq⟩ := Option.map_eq_some_iff.mp hstring
    cases heq
    have hbody := length_of_stringBody? hinner
    have hspace := length_skipSpace_le after
    simp only [List.length_cons]
    omega
  next => simp at hstring

/-- Reading a member takes at least one character off. -/
theorem length_of_member? {chars rest : List Char} {member : String × String}
    (hmember : member? chars = some (member, rest)) : rest.length < chars.length := by
  simp only [member?, Option.bind_eq_bind, Option.bind_eq_some_iff] at hmember
  obtain ⟨⟨key, after⟩, hkey, hrest⟩ := hmember
  have hfirst := length_of_string? hkey
  dsimp only at hrest
  split at hrest
  next inner =>
    simp only [Option.bind_eq_some_iff, Option.some.injEq, Prod.mk.injEq] at hrest
    obtain ⟨⟨value, last⟩, hvalue, _, rfl⟩ := hrest
    have hsecond := length_of_string? hvalue
    have hspace := length_skipSpace_le inner
    simp only [List.length_cons] at hfirst
    dsimp only at hsecond ⊢
    omega
  next => simp at hrest

/-- The members up to the brace that ends the text, in order. -/
def members? (chars : List Char) : Option (List (String × String)) :=
  match _hmember : member? chars with
  | some (member, ',' :: rest) => (members? (skipSpace rest)).map (member :: ·)
  | some (member, ['\x7d']) => some [member]
  | _ => none
  termination_by chars.length
  decreasing_by
    have hshorter := length_of_member? _hmember
    have hspace := length_skipSpace_le rest
    simp only [List.length_cons] at hshorter
    omega

/-- The map that a text spells. Blanks at its ends are dropped. -/
def parse? (text : String) : Option (TextMap String) :=
  match Blank.trimList text.toList with
  | '\x7b' :: rest =>
      match skipSpace rest with
      | ['\x7d'] => some .empty
      | members => (members? members).map .ofList
  | _ => none

end SealedStore.JsonObject

import SealedStore.Text.Unprintable

/-!
# Quoted texts in messages

A text inside a message stands in double quotes, with everything escaped that would hide in it: the
quote, the backslash, and what is not shown as it is.
-/

namespace SealedStore.Quoted

/-- The digits of a number to the base 16. -/
def hexDigits (number : Nat) : List Char :=
  Nat.toDigits 16 number

/-- A character as it stands between the quotes. -/
def escape (char : Char) : List Char :=
  match char with
  | '"' => ['\\', '"']
  | '\\' => ['\\', '\\']
  | '\n' => ['\\', 'n']
  | '\r' => ['\\', 'r']
  | '\t' => ['\\', 't']
  | '\x00' => ['\\', '0']
  | _ =>
      if Unprintable.isUnprintable char then
        ['\\', 'u', '\x7b'] ++ hexDigits char.toNat ++ ['\x7d']
      else [char]

/-- The text in quotes. -/
def quote (text : String) : String :=
  String.ofList ('"' :: text.toList.flatMap escape ++ ['"'])

end SealedStore.Quoted

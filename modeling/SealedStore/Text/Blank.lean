/-!
# Blank characters

The characters with the Unicode property `White_Space`, and texts without the blanks at their ends.
-/

namespace SealedStore.Blank

/-- Whether a character is white space in the sense of Unicode. -/
def isBlank (char : Char) : Bool :=
  let code := char.toNat
  (0x9 ≤ code && code ≤ 0xd) || code == 0x20 || code == 0x85 || code == 0xa0 || code == 0x1680 ||
    (0x2000 ≤ code && code ≤ 0x200a) || code == 0x2028 || code == 0x2029 || code == 0x202f ||
    code == 0x205f || code == 0x3000

/-- The characters without the blanks before the first and after the last that is none. -/
def trimList (chars : List Char) : List Char :=
  ((chars.dropWhile isBlank).reverse.dropWhile isBlank).reverse

/-- The text without blanks at its ends. -/
def trim (text : String) : String :=
  String.ofList (trimList text.toList)

/-- Whether there is nothing but blanks in the text. -/
def isBlankText (text : String) : Bool :=
  text.toList.all isBlank

end SealedStore.Blank

import SealedStore.Bytes

/-!
# UTF-8

The writing of characters as bytes and its reading. A byte string that is no UTF-8 is reported with
the number of bytes that are, and with how long a beginning of some character follows them, unless
the byte string ends inside that character.
-/

namespace SealedStore.Utf8

/-- A continuation byte with the given low six bits. -/
def continuation (bits : Nat) : UInt8 :=
  UInt8.ofNat (0x80 + bits % 64)

/-- The bytes of a character: one to four, the higher bits first. -/
def encodeChar (char : Char) : Bytes :=
  let code := char.toNat
  if code < 0x80 then [UInt8.ofNat code]
  else if code < 0x800 then [UInt8.ofNat (0xc0 + code / 64), continuation code]
  else if code < 0x10000 then
    [UInt8.ofNat (0xe0 + code / 4096), continuation (code / 64), continuation code]
  else
    [UInt8.ofNat (0xf0 + code / 262144), continuation (code / 4096), continuation (code / 64),
      continuation code]

/-- The bytes of a text. -/
def encode (text : String) : Bytes :=
  text.toList.flatMap encodeChar

/-- Where a byte string stops being UTF-8. -/
structure Defect where
  /-- The number of good bytes. -/
  position : Nat
  /-- How many bytes begin a character there, or `none` if the byte string ends in one. -/
  length? : Option Nat
  deriving DecidableEq, Repr

/-- The wording of a defect. -/
def Defect.message : Defect → String
  | ⟨position, some length⟩ =>
      s!"invalid utf-8 sequence of {length} bytes from index {position}"
  | ⟨position, none⟩ => s!"incomplete utf-8 byte sequence from index {position}"

/-- What a first byte announces: how many bytes follow it, between which bounds the next one lies,
and the bits that it contributes. -/
structure Lead where
  following : Nat
  low : UInt8
  high : UInt8
  bits : Nat
  deriving DecidableEq

/-- The announcement of a first byte, unless no character begins with it. The bounds rule out longer
writings of a code than needed, the surrogates, and codes beyond the last. -/
def lead? (byte : UInt8) : Option Lead :=
  let value := byte.toNat
  if value < 0x80 then some ⟨0, 0, 0, value⟩
  else if value < 0xc2 then none
  else if value < 0xe0 then some ⟨1, 0x80, 0xbf, value - 0xc0⟩
  else if value = 0xe0 then some ⟨2, 0xa0, 0xbf, 0⟩
  else if value = 0xed then some ⟨2, 0x80, 0x9f, 0xd⟩
  else if value < 0xf0 then some ⟨2, 0x80, 0xbf, value - 0xe0⟩
  else if value = 0xf0 then some ⟨3, 0x90, 0xbf, 0⟩
  else if value < 0xf4 then some ⟨3, 0x80, 0xbf, value - 0xf0⟩
  else if value = 0xf4 then some ⟨3, 0x80, 0x8f, 4⟩
  else none

/-- The code that the next `count` bytes complete, of which the first has the given bounds and
`taken` bytes have been read. -/
def readCode : (count : Nat) → (low high : UInt8) → (taken code : Nat) → Bytes →
    Except (Option Nat) Nat
  | 0, _, _, _, code, _ => .ok code
  | _ + 1, _, _, _, _, [] => .error none
  | count + 1, low, high, taken, code, byte :: rest =>
      if low ≤ byte ∧ byte ≤ high then
        readCode count 0x80 0xbf (taken + 1) (code * 64 + (byte.toNat - 0x80)) rest
      else .error (some taken)

/-- The characters of a byte string at some position, of which the first `skip` bytes belong to the
character before. -/
def decodeFrom : (position skip : Nat) → Bytes → Except Defect (List Char)
  | _, _, [] => .ok []
  | position, skip + 1, _ :: rest => decodeFrom (position + 1) skip rest
  | position, 0, byte :: rest =>
      match lead? byte with
      | none => .error ⟨position, some 1⟩
      | some lead =>
          match readCode lead.following lead.low lead.high 1 lead.bits rest with
          | .error length? => .error ⟨position, length?⟩
          | .ok code => (Char.ofNat code :: ·) <$> decodeFrom (position + 1) lead.following rest

/-- The text of a byte string. -/
def decode (bytes : Bytes) : Except Defect String :=
  String.ofList <$> decodeFrom 0 0 bytes

end SealedStore.Utf8

import SealedStore.Bytes

/-!
# Base64

Three bytes are written as four symbols of the standard alphabet, and the end is filled up with `=`
to four. Reading accepts exactly what writing produces, and for anything else tells the first fault
that a reader meets: it goes through the full quads, then through the tail of up to four bytes, and
then looks at the number of symbols, the padding, and the bits left over.
-/

namespace SealedStore.Base64

/-- The byte that fills up the last quad. -/
def padding : UInt8 := 61

/-- The symbol of a value below 64. -/
def symbol (value : Nat) : UInt8 :=
  if value < 26 then UInt8.ofNat (65 + value)
  else if value < 52 then UInt8.ofNat (71 + value)
  else if value < 62 then UInt8.ofNat (value - 4)
  else if value = 62 then 43
  else 47

/-- The value of a symbol. -/
def value? (byte : UInt8) : Option Nat :=
  let code := byte.toNat
  if 65 ≤ code ∧ code ≤ 90 then some (code - 65)
  else if 97 ≤ code ∧ code ≤ 122 then some (code - 71)
  else if 48 ≤ code ∧ code ≤ 57 then some (code + 4)
  else if code = 43 then some 62
  else if code = 47 then some 63
  else none

/-- The symbols of a byte string. -/
def encodeBytes : Bytes → Bytes
  | [] => []
  | [a] => [symbol (a.toNat / 4), symbol (a.toNat % 4 * 16), padding, padding]
  | [a, b] =>
      [symbol (a.toNat / 4), symbol (a.toNat % 4 * 16 + b.toNat / 16), symbol (b.toNat % 16 * 4),
        padding]
  | a :: b :: c :: rest =>
      symbol (a.toNat / 4) :: symbol (a.toNat % 4 * 16 + b.toNat / 16) ::
        symbol (b.toNat % 16 * 4 + c.toNat / 64) :: symbol (c.toNat % 64) :: encodeBytes rest

/-- The base64 text of a byte string. -/
def encode (bytes : Bytes) : String :=
  String.ofList ((encodeBytes bytes).map fun byte ↦ Char.ofNat byte.toNat)

/-- Why a byte string is no base64. -/
inductive Defect where
  | invalidSymbol (offset : Nat) (byte : UInt8)
  | invalidLength (length : Nat)
  | invalidPadding
  | invalidLastSymbol (offset : Nat) (byte : UInt8)
  deriving DecidableEq, Repr

/-- The wording of a defect. -/
def Defect.message : Defect → String
  | .invalidSymbol offset byte => s!"Invalid symbol {byte.toNat}, offset {offset}."
  | .invalidLength length => s!"Invalid input length: {length}"
  | .invalidPadding => "Invalid padding"
  | .invalidLastSymbol offset byte => s!"Invalid last symbol {byte.toNat}, offset {offset}."

/-- The values of symbols, the first of which stands at `offset`. -/
def readSymbols (offset : Nat) : Bytes → Except Defect (List Nat)
  | [] => .ok []
  | byte :: rest =>
      match value? byte with
      | none => .error (.invalidSymbol offset byte)
      | some value => (value :: ·) <$> readSymbols (offset + 1) rest

/-- Checks that nothing but padding follows the first padding, which stands at `offset`. -/
def checkPadding (offset : Nat) (bytes : Bytes) : Except Defect Unit :=
  if bytes.all (· = padding) then .ok () else .error (.invalidSymbol offset padding)

/-- The values of the symbols in the tail, and the bytes from the first padding on. Padding may
begin only after two places. -/
def readTail (offset place : Nat) : Bytes → Except Defect (List Nat × Bytes)
  | [] => .ok ([], [])
  | byte :: rest =>
      if byte = padding then
        if place < 2 then .error (.invalidSymbol offset padding)
        else (fun _ ↦ ([], byte :: rest)) <$> checkPadding offset rest
      else
        match value? byte with
        | none => .error (.invalidSymbol offset byte)
        | some value =>
            (fun (values, filling) ↦ (value :: values, filling)) <$>
              readTail (offset + 1) (place + 1) rest

/-- The bytes that values of six bits spell. Bits left over are dropped. -/
def joinValues : List Nat → Bytes
  | a :: b :: c :: d :: rest =>
      UInt8.ofNat (a * 4 + b / 16) :: UInt8.ofNat (b % 16 * 16 + c / 4) ::
        UInt8.ofNat (c % 4 * 64 + d) :: joinValues rest
  | [a, b, c] => [UInt8.ofNat (a * 4 + b / 16), UInt8.ofNat (b % 16 * 16 + c / 4)]
  | [a, b] => [UInt8.ofNat (a * 4 + b / 16)]
  | _ => []

/-- The bits that the last of so many values does not need. -/
def leftover : List Nat → Nat
  | [_, b] => b % 16
  | [_, _, c] => c % 4
  | _ => 0

/-- The bytes that a base64 byte string spells. -/
def decodeBytes (bytes : Bytes) : Except Defect Bytes := do
  let tailStart := 4 * ((bytes.length - 1) / 4)
  if bytes.length % 4 = 1 then
    if let some last := bytes.getLast? then
      if last ≠ padding ∧ value? last = none then
        throw (.invalidSymbol (bytes.length - 1) last)
  let head ← readSymbols 0 (bytes.take tailStart)
  let (tail, filling) ← readTail tailStart 0 (bytes.drop tailStart)
  if bytes ≠ [] ∧ tail.length < 2 then
    throw (.invalidLength (tailStart + tail.length))
  if (tail.length + filling.length) % 4 ≠ 0 then
    throw .invalidPadding
  if leftover tail ≠ 0 then
    if let some last := bytes[tailStart + tail.length - 1]? then
      throw (.invalidLastSymbol (tailStart + tail.length - 1) last)
  return joinValues (head ++ tail)

end SealedStore.Base64

/-!
# Byte strings

Byte strings, their bounded slices, and the big-endian reading of a byte string as a number. The
two directions of the reading undo each other: `toBits_ofBits` and `ofBits_toBits`. Slices out of
range have no value, so a reader has to say what happens there.
-/

namespace SealedStore

/-- A byte string. -/
abbrev Bytes := List UInt8

namespace Bytes

/-- As many zero bytes as asked for. -/
def zeros (count : Nat) : Bytes :=
  List.replicate count 0

/-- The `count` bytes from `offset` on, provided the byte string has them all. -/
def slice? (bytes : Bytes) (offset count : Nat) : Option Bytes :=
  if offset + count ≤ bytes.length then some ((bytes.drop offset).take count) else none

/-- The byte string cut so that the second part has `count` bytes, provided it is that long. -/
def splitEnd? (bytes : Bytes) (count : Nat) : Option (Bytes × Bytes) :=
  if count ≤ bytes.length then
    some (bytes.take (bytes.length - count), bytes.drop (bytes.length - count))
  else none

/-- The first `count` pieces of `size` bytes each. -/
def pieces (size : Nat) : (count : Nat) → Bytes → List Bytes
  | 0, _ => []
  | count + 1, bytes => bytes.take size :: pieces size count (bytes.drop size)

/-- The byte-by-byte exclusive or, as long as the shorter of the two. -/
def xor (left right : Bytes) : Bytes :=
  List.zipWith (· ^^^ ·) left right

/-- What a log may show of a secret byte string: its length. -/
def redacted (bytes : Bytes) : String :=
  s!"CryptoBuffer(len={bytes.length}, [REDACTED])"

/-! ## Big-endian numbers -/

/-- The number that the bytes spell in base 256, the most significant byte first. -/
def toNat (bytes : Bytes) : Nat :=
  bytes.foldl (fun value byte ↦ value * 256 + byte.toNat) 0

/-- The last `count` base-256 digits of a number, the most significant first. -/
def ofNat : (count value : Nat) → Bytes
  | 0, _ => []
  | count + 1, value => ofNat count (value / 256) ++ [UInt8.ofNat value]

/-- How many numbers so many bytes can spell. -/
def capacity : (count : Nat) → Nat
  | 0 => 1
  | count + 1 => 256 * capacity count

@[simp] theorem length_ofNat (count value : Nat) : (ofNat count value).length = count := by
  induction count generalizing value with
  | zero => rfl
  | succ count ih => simp [ofNat, ih]

theorem toNat_concat (bytes : Bytes) (last : UInt8) :
    toNat (bytes ++ [last]) = toNat bytes * 256 + last.toNat := by
  simp [toNat]

theorem capacity_pos (count : Nat) : 0 < capacity count := by
  induction count with
  | zero => exact Nat.one_pos
  | succ count ih => exact Nat.mul_pos (by decide) ih

theorem toNat_ofNat (count value : Nat) : toNat (ofNat count value) = value % capacity count := by
  induction count generalizing value with
  | zero => simp [ofNat, toNat, capacity, Nat.mod_one]
  | succ count ih =>
      rw [ofNat, toNat_concat, ih, capacity, Nat.mod_mul]
      simp
      omega

theorem ofNat_toNat (bytes : Bytes) : ofNat bytes.length (toNat bytes) = bytes := by
  induction hlength : bytes.length generalizing bytes with
  | zero => simp [List.eq_nil_of_length_eq_zero hlength, ofNat]
  | succ count ih =>
      have hne : bytes ≠ [] := by intro hnil; simp [hnil] at hlength
      have hlast := (bytes.getLast hne).toNat_lt
      have hsplit := List.dropLast_concat_getLast hne
      rw [← hsplit, toNat_concat, ofNat,
        show (toNat bytes.dropLast * 256 + (bytes.getLast hne).toNat) / 256 =
          toNat bytes.dropLast by omega,
        ih bytes.dropLast (by simp [hlength])]
      congr 2
      apply UInt8.toNat_inj.mp
      simp

theorem toNat_lt (bytes : Bytes) : toNat bytes < capacity bytes.length := by
  rw [← ofNat_toNat bytes, toNat_ofNat, length_ofNat]
  exact Nat.mod_lt _ (capacity_pos _)

/-! ## Words of bits -/

/-- The word of `width` bits that the bytes spell, provided they are exactly that many bits. -/
def toBits? (width : Nat) (bytes : Bytes) : Option (BitVec width) :=
  if 8 * bytes.length = width then some (BitVec.ofNat width (toNat bytes)) else none

/-- The bytes of a word, the most significant first. -/
def ofBits {width : Nat} (word : BitVec width) : Bytes :=
  ofNat (width / 8) word.toNat

@[simp] theorem length_ofBits {width : Nat} (word : BitVec width) :
    (ofBits word).length = width / 8 := by
  simp [ofBits]

/-- The bytes that spell a word are those of the right length. -/
theorem exists_toBits?_eq_some_iff {width : Nat} {bytes : Bytes} :
    (∃ word, bytes.toBits? width = some word) ↔ 8 * bytes.length = width := by
  unfold toBits?
  split
  next hwidth => exact ⟨fun _ ↦ hwidth, fun _ ↦ ⟨_, rfl⟩⟩
  next hwidth =>
    constructor
    · rintro ⟨_, hword⟩
      cases hword
    · exact fun hlength ↦ absurd hlength hwidth

/-- A word of whole bytes spells what its bytes can spell. -/
theorem toNat_word (count value : Nat) :
    (BitVec.ofNat (8 * count) value).toNat = value % capacity count := by
  have hcapacity : capacity count = 2 ^ (8 * count) := by
    induction count with
    | zero => rfl
    | succ count ih =>
        rw [capacity, ih, Nat.mul_succ, Nat.pow_add]
        omega
  rw [hcapacity]
  exact BitVec.toNat_ofNat _ _

/-- A word of whole bytes is read back from its bytes. -/
theorem toBits?_ofBits {count : Nat} (word : BitVec (8 * count)) :
    toBits? (8 * count) (ofBits word) = some word := by
  have hcount : 8 * count / 8 = count := by omega
  have hself := toNat_word count word.toNat
  rw [BitVec.ofNat_toNat, BitVec.setWidth_eq] at hself
  rw [toBits?, length_ofBits, hcount, if_pos rfl]
  refine congrArg some (BitVec.eq_of_toNat_eq ?_)
  rw [toNat_word, ofBits, hcount, toNat_ofNat, ← hself, ← hself]

/-- A byte string that spells a word is written back from it. -/
theorem ofBits_of_toBits? {width : Nat} {bytes : Bytes} {word : BitVec width}
    (hword : toBits? width bytes = some word) : ofBits word = bytes := by
  unfold toBits? at hword
  split at hword
  next hwidth =>
    subst hwidth
    have hcount : 8 * bytes.length / 8 = bytes.length := by omega
    cases hword
    rw [ofBits, hcount, toNat_word, Nat.mod_eq_of_lt (toNat_lt bytes), ofNat_toNat]
  next => simp at hword

end Bytes

end SealedStore

/-!
# The byte substitution of AES

The substitution replaces every byte by the entry of a fixed table; a second table takes it back.
The tables undo each other in both orders: `restore_substitute` and `substitute_restore`.
-/

namespace SealedStore.Aes

/-- A table of 256 bytes in 16 rows, each row one number of 16 bytes. -/
abbrev ByteTable := Vector Nat 16

/-- The entry at a byte: its high half picks the row and its low half the byte in the row, both
counted from the left. -/
def ByteTable.entry (table : ByteTable) (byte : UInt8) : UInt8 :=
  let index := byte.toNat
  UInt8.ofNat (table[index / 16 % 16] >>> (8 * (15 - index % 16)))

/-- The substitution table: the entry at a byte is the inverse of the byte in the field of 256
elements, under a fixed affine map. -/
def substitutionTable : ByteTable :=
  #v[
    0x637c777bf26b6fc53001672bfed7ab76, 0xca82c97dfa5947f0add4a2af9ca472c0,
    0xb7fd9326363ff7cc34a5e5f171d83115, 0x04c723c31896059a071280e2eb27b275,
    0x09832c1a1b6e5aa0523bd6b329e32f84, 0x53d100ed20fcb15b6acbbe394a4c58cf,
    0xd0efaafb434d338545f9027f503c9fa8, 0x51a3408f929d38f5bcb6da2110fff3d2,
    0xcd0c13ec5f974417c4a77e3d645d1973, 0x60814fdc222a908846eeb814de5e0bdb,
    0xe0323a0a4906245cc2d3ac629195e479, 0xe7c8376d8dd54ea96c56f4ea657aae08,
    0xba78252e1ca6b4c6e8dd741f4bbd8b8a, 0x703eb5664803f60e613557b986c11d9e,
    0xe1f8981169d98e949b1e87e9ce5528df, 0x8ca1890dbfe6426841992d0fb054bb16]

/-- The table of the inverse substitution. -/
def restorationTable : ByteTable :=
  #v[
    0x52096ad53036a538bf40a39e81f3d7fb, 0x7ce339829b2fff87348e4344c4dee9cb,
    0x547b9432a6c2233dee4c950b42fac34e, 0x082ea16628d924b2765ba2496d8bd125,
    0x72f8f66486689816d4a45ccc5d65b692, 0x6c704850fdedb9da5e154657a78d9d84,
    0x90d8ab008cbcd30af7e45805b8b34506, 0xd02c1e8fca3f0f02c1afbd0301138a6b,
    0x3a9111414f67dcea97f2cfcef0b4e673, 0x96ac7422e7ad3585e2f937e81c75df6e,
    0x47f11a711d29c5896fb7620eaa18be1b, 0xfc563e4bc6d279209adbc0fe78cd5af4,
    0x1fdda8338807c731b11210592780ec5f, 0x60517fa919b54a0d2de57a9f93c99cef,
    0xa0e03b4dae2af5b0c8ebbb3c83539961, 0x172b047eba77d626e169146355210c7d]

/-- The byte that stands for a byte. -/
def substitute (byte : UInt8) : UInt8 :=
  substitutionTable.entry byte

/-- The byte for which a byte stands. -/
def restore (byte : UInt8) : UInt8 :=
  restorationTable.entry byte

/-- What holds of the 256 indices holds of every byte. -/
theorem forall_byte {p : UInt8 → Prop} (hindex : ∀ index : Fin UInt8.size, p (UInt8.ofFin index))
    (byte : UInt8) : p byte := by
  simpa using hindex byte.toFin

@[simp] theorem restore_substitute (byte : UInt8) : restore (substitute byte) = byte := by
  revert byte
  exact forall_byte (by decide +kernel)

@[simp] theorem substitute_restore (byte : UInt8) : substitute (restore byte) = byte := by
  revert byte
  exact forall_byte (by decide +kernel)

end SealedStore.Aes

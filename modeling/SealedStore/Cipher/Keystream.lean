import SealedStore.BlockCipher

/-!
# Keystreams

A keystream is a sequence of blocks written one after the other, and data is masked by adding the
keystream bytes from some position on. Byte `i` of the keystream depends on `i` alone, so data may
be masked in pieces, and masking twice changes nothing.
-/

namespace SealedStore.Keystream

/-- The `count` keystream bytes from `offset` on. -/
def bytes (block : Nat → Block) (offset count : Nat) : Bytes :=
  let first := offset / blockLength
  let last := (offset + count + (blockLength - 1)) / blockLength
  ((((List.range' first (last - first)).flatMap fun index ↦ Bytes.ofBits (block index)).drop
    (offset % blockLength)).take count)

/-- The data with the keystream from `offset` on added to it. -/
def mask (block : Nat → Block) (offset : Nat) (data : Bytes) : Bytes :=
  data.xor (bytes block offset data.length)

end SealedStore.Keystream

import SealedStore.Cipher.Keystream
import SealedStore.Cipher.Machine

/-!
# Counter mode

The keystream is the encryption of a 128-bit counter that starts at the IV and wraps. The block at
an index depends on the IV and the index alone, so a session that starts at `counterBlock iv index`
reads a message from that block on.
-/

namespace SealedStore.Ctr

/-- The counter after so many blocks. -/
def counterBlock (iv : Block) (index : Nat) : Block :=
  iv + BitVec.ofNat 128 index

/-- The encrypted counters. -/
def keystream (cipher : BlockCipher) (iv : Block) (index : Nat) : Block :=
  cipher.encrypt (counterBlock iv index)

/-- One session hands out one block less than there are counters, which are of 128 bits. -/
def maxBlocks : Nat := 0xffffffffffffffffffffffffffffffff

/-- The machine of counter mode carries the number of bytes masked so far. -/
def machine (cipher : BlockCipher) (iv : Block) : Machine Nat where
  start _ := 0
  absorb _ offset data :=
    let reached := offset + data.length
    if (reached + (blockLength - 1)) / blockLength ≤ maxBlocks then
      .ok (Keystream.mask (keystream cipher iv) offset data, reached)
    else .error .keystreamExhausted
  conclude _ _ tag := .done [] tag

/-- The counter block of an index for an IV given in bytes. -/
def counterBlockFor (iv : Bytes) (index : Nat) : Except CipherError Bytes :=
  match iv.toBits? 128 with
  | none => .error (.wrongLength .iv blockLength iv.length)
  | some start => .ok (Bytes.ofBits (counterBlock start index))

end SealedStore.Ctr

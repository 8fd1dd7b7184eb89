import SealedStore.Cipher.Ghash
import SealedStore.Cipher.Keystream
import SealedStore.Cipher.Machine

/-!
# Galois counter mode

Counter mode with a 96-bit IV, and a tag of 128 bits over the ciphertext. Nothing is released before
the end: encryption then gives the whole ciphertext and sets the tag, and decryption gives the whole
plaintext provided the session holds the right tag.
-/

namespace SealedStore.Gcm

/-- A tag is 16 bytes long. -/
def tagLength : Nat := 16

/-- The longest message under one IV, in bytes: all blocks of the 32-bit counter but two, so that it
does not come back to the block of the tag. -/
def maxMessage : Nat := 0xfffffffe * blockLength

/-- The block that masks the tag. -/
def tagMask (cipher : BlockCipher) (iv : BitVec 96) : Block :=
  cipher.encrypt (iv ++ (1 : BitVec 32))

/-- The keystream of the message: the counters after the one of the tag. -/
def keystream (cipher : BlockCipher) (iv : BitVec 96) (index : Nat) : Block :=
  cipher.encrypt (iv ++ BitVec.ofNat 32 (index + 2))

/-- The last hashed block: the bit lengths of the additional data, of which there is none, and of
the ciphertext. -/
def lengthBlock (ciphertext : Bytes) : Block :=
  (0 : BitVec 64) ++ BitVec.ofNat 64 (8 * ciphertext.length)

/-- The blocks over which the tag is taken. -/
def hashedBlocks (ciphertext : Bytes) : List Block :=
  ciphertext.padded.blocks ++ [lengthBlock ciphertext]

/-- The tag of a ciphertext. -/
def tag (cipher : BlockCipher) (iv : BitVec 96) (ciphertext : Bytes) : Block :=
  Ghash.hash (cipher.encrypt 0) (hashedBlocks ciphertext) ^^^ tagMask cipher iv

/-- The machine of Galois counter mode carries the data it has been fed. -/
def machine (cipher : BlockCipher) (iv : BitVec 96) : Machine Bytes where
  start _ := []
  absorb _ pending data := .ok ([], pending ++ data)
  conclude
    | .encrypt, message, _ =>
        if message.length ≤ maxMessage then
          let output := Keystream.mask (keystream cipher iv) 0 message
          .done output (Bytes.ofBits (tag cipher iv output))
        else .broken .messageTooLong
    | .decrypt, message, given =>
        if given.isEmpty then .retry .missingTag
        else match given.toBits? 128 with
          | none => .retry (.tagLength tagLength given.length)
          | some expected =>
              if message.length ≤ maxMessage ∧ tag cipher iv message = expected then
                .done (Keystream.mask (keystream cipher iv) 0 message) given
              else .broken .authenticationFailure

end SealedStore.Gcm

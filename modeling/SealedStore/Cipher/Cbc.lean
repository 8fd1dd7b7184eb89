import SealedStore.BlockCipher
import SealedStore.Cipher.Machine

/-!
# Cipher block chaining

Every block of plaintext is added to the ciphertext block before it, the first to the IV, and then
encrypted. The plaintext is padded to whole blocks: every padding byte tells how many they are, and
there is always at least one. Encryption releases whole blocks at once; decryption holds back the
last block it has seen, because only at the end is it known to carry the padding.
-/

namespace SealedStore.Cbc

/-- The last ciphertext block, and the input not yet released. -/
structure Work where
  chain : Block
  pending : Bytes
  deriving DecidableEq

/-- The ciphertext blocks, each chained to the one before it. -/
def encryptBlocks (cipher : BlockCipher) (chain : Block) : List Block → List Block
  | [] => []
  | block :: rest =>
      let next := cipher.encrypt (block ^^^ chain)
      next :: encryptBlocks cipher next rest

/-- The plaintext blocks. -/
def decryptBlocks (cipher : BlockCipher) (chain : Block) : List Block → List Block
  | [] => []
  | block :: rest => (cipher.decrypt block ^^^ chain) :: decryptBlocks cipher block rest

/-- How many of the bytes at hand can be released: whole blocks, and in decryption not the last
byte's block. -/
def ready : Direction → (available : Nat) → Nat
  | .encrypt, available => blockLength * (available / blockLength)
  | .decrypt, available => blockLength * ((available - 1) / blockLength)

/-- The bytes followed by their padding. -/
def pad (bytes : Bytes) : Bytes :=
  let count := blockLength - bytes.length % blockLength
  bytes ++ List.replicate count (UInt8.ofNat count)

/-- The bytes of a block without their padding. The last byte tells how many to take off, and they
all have to be like it. -/
def unpad (bytes : Bytes) : Except CipherError Bytes :=
  match bytes[blockLength - 1]? with
  | none => .error .outOfBounds
  | some last =>
      if 1 ≤ last.toNat ∧ last.toNat ≤ blockLength then
        match bytes.slice? (blockLength - last.toNat) last.toNat with
        | none => .error .outOfBounds
        | some padding =>
            if padding.all (· = last) then .ok (bytes.take (blockLength - last.toNat))
            else .error .badPadding
      else .error .badPadding

/-- Whole blocks turned in a direction, and the ciphertext block that comes last. -/
def turn (cipher : BlockCipher) (chain : Block) (direction : Direction) (blocks : List Block) :
    List Block × Block :=
  match direction with
  | .encrypt =>
      let output := encryptBlocks cipher chain blocks
      (output, output.getLastD chain)
  | .decrypt => (decryptBlocks cipher chain blocks, blocks.getLastD chain)

/-- The machine of chaining under a block cipher and an IV. -/
def machine (cipher : BlockCipher) (iv : Block) : Machine Work where
  start _ := ⟨iv, []⟩
  absorb direction work data :=
    let available := work.pending ++ data
    let count := ready direction available.length
    let (output, chain) := turn cipher work.chain direction (Bytes.blocks (available.take count))
    .ok (Bytes.ofWords output, ⟨chain, available.drop count⟩)
  conclude
    | .encrypt, work, tag =>
        .done (Bytes.ofWords (encryptBlocks cipher work.chain (pad work.pending).blocks)) tag
    | .decrypt, work, tag =>
        if work.pending.length ≠ blockLength then
          .broken (.truncatedCiphertext work.pending.length)
        else
          let last := Bytes.ofWords (decryptBlocks cipher work.chain work.pending.blocks)
          match unpad last with
          | .ok output => .done output tag
          | .error error => .broken error

end SealedStore.Cbc

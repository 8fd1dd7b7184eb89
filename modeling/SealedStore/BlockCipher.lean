import SealedStore.Block

/-!
# Block ciphers

A block cipher under one key is a permutation of the blocks, given together with its inverse. The
modes of operation are built over this type and use nothing else of the cipher.
-/

namespace SealedStore

/-- A permutation of the blocks and its inverse. -/
structure BlockCipher where
  encrypt : Block → Block
  decrypt : Block → Block
  decrypt_encrypt : ∀ block, decrypt (encrypt block) = block
  encrypt_decrypt : ∀ block, encrypt (decrypt block) = block

attribute [simp] BlockCipher.decrypt_encrypt BlockCipher.encrypt_decrypt

end SealedStore

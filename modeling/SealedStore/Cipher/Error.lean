/-!
# What can go wrong in a cipher session

The two directions of a session, the states it can be in, and the causes of failure with their
wording.
-/

namespace SealedStore

/-- Which way a session turns its data. -/
inductive Direction where
  | encrypt
  | decrypt
  deriving DecidableEq, Repr

/-- The word for a direction. -/
def Direction.name : Direction → String
  | .encrypt => "encrypt"
  | .decrypt => "decrypt"

/-- Where a session is in its life. -/
inductive SessionState where
  | fresh
  | encrypting
  | decrypting
  | finalized
  | poisoned
  deriving DecidableEq, Repr

/-- The word for a state. -/
def SessionState.name : SessionState → String
  | .fresh => "fresh"
  | .encrypting => "encrypting"
  | .decrypting => "decrypting"
  | .finalized => "finalized"
  | .poisoned => "poisoned"

/-- The state of a session that is under way in a direction. -/
def Direction.state : Direction → SessionState
  | .encrypt => .encrypting
  | .decrypt => .decrypting

/-- The inputs of a session whose length is fixed. -/
inductive KeyPart where
  | key
  | iv
  | masterKey
  deriving DecidableEq, Repr

/-- The words for such an input. -/
def KeyPart.name : KeyPart → String
  | .key => "key"
  | .iv => "iv"
  | .masterKey => "master key"

/-- Why a cipher operation failed. -/
inductive CipherError where
  /-- A key or IV is not as long as the cipher needs it. -/
  | wrongLength (part : KeyPart) (expected actual : Nat)
  /-- The counter blocks of one session are used up. -/
  | keystreamExhausted
  /-- The message is longer than one IV may cover. -/
  | messageTooLong
  /-- The tag is not the one of the ciphertext. -/
  | authenticationFailure
  /-- The unwrapped key does not carry the check value. -/
  | keyIntegrityFailure
  /-- Decryption was to end before a tag was given. -/
  | missingTag
  /-- The given tag has the wrong length. -/
  | tagLength (expected actual : Nat)
  /-- What is to be wrapped or unwrapped has a length that no key has. -/
  | keyDataLength (direction : Direction) (actual : Nat)
  /-- The last block does not end in padding. -/
  | badPadding
  /-- The ciphertext does not end at a block boundary, or is empty. -/
  | truncatedCiphertext (trailing : Nat)
  /-- The session is busy the other way, or over. -/
  | invalidState (direction : Direction) (state : SessionState)
  /-- The session failed before. -/
  | poisoned
  /-- Nobody holds the cryptographic facility open. -/
  | facilityClosed
  /-- A byte string was read outside its bounds. -/
  | outOfBounds
  deriving DecidableEq, Repr

/-- The wording of a failure. -/
def CipherError.message : CipherError → String
  | .wrongLength part expected actual =>
      s!"cipher initialisation failed: {part.name} must be {expected} bytes, got {actual}"
  | .keystreamExhausted => "cipher initialisation failed: keystream exhausted: Loop Error"
  | .messageTooLong => "cipher initialisation failed: message exceeds GCM length limit"
  | .authenticationFailure => "authentication tag mismatch"
  | .keyIntegrityFailure => "key integrity check failed"
  | .missingTag => "authentication tag not set"
  | .tagLength expected actual =>
      s!"invalid authentication tag length: expected {expected} bytes, got {actual}"
  | .keyDataLength .encrypt actual =>
      s!"invalid key data: key data must be a multiple of 8 bytes and at least 16, got {actual}"
  | .keyDataLength .decrypt actual =>
      s!"invalid key data: wrapped key must be a multiple of 8 bytes and at least 24, got {actual}"
  | .badPadding => "invalid block padding"
  | .truncatedCiphertext trailing =>
      s!"truncated ciphertext: {trailing} trailing bytes, expected one 16-byte block"
  | .invalidState direction state =>
      s!"cannot {direction.name} while session is {state.name}"
  | .poisoned => "cipher session poisoned by an earlier failure"
  | .facilityClosed => "crypto runtime not initialised"
  | .outOfBounds => "byte string read outside its bounds"

end SealedStore

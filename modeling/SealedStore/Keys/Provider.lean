import SealedStore.Envelope.Material
import SealedStore.Facility

/-!
# Key providers

A key provider wraps content keys and unwraps them. What it wraps it returns with the algorithm and
the description to record; both are presented again to unwrap it.
-/

namespace SealedStore

/-- What went wrong with a request to the key service. -/
inductive KeyServiceError where
  /-- The request was not answered. -/
  | failed (reason : String)
  /-- The answer to a wrap request holds no wrapped key. -/
  | noCiphertext
  /-- The answer to an unwrap request holds no key. -/
  | noPlaintext
  deriving DecidableEq, Repr

/-- The wording of the error. -/
def KeyServiceError.message : KeyServiceError → String
  | .failed reason => reason
  | .noCiphertext => "encrypt response contained no ciphertext"
  | .noPlaintext => "decrypt response contained no plaintext"

/-- What is wrong with a wrapped key, or with a master key in base64. -/
inductive KeyDefect where
  | masterKey (defect : Base64.Defect)
  | tooShort (minimum actual : Nat)
  deriving DecidableEq, Repr

/-- The wording of such a defect. -/
def KeyDefect.message : KeyDefect → String
  | .masterKey defect => s!"master key: {defect.message}"
  | .tooShort minimum actual => s!"AES/GCM wrapped key must exceed {minimum} bytes, got {actual}"

/-- Why a key provider failed. -/
inductive KeyError where
  /-- The provider does not wrap or unwrap with the algorithm. -/
  | unsupportedAlgorithm (algorithm : WrapAlgorithm)
  /-- The cipher of a local provider failed. -/
  | cipher (error : CipherError)
  /-- Something given as key bytes cannot be key bytes. -/
  | malformed (defect : KeyDefect)
  /-- The key service failed. -/
  | service (error : KeyServiceError)
  deriving DecidableEq, Repr

/-- The wording of the error. -/
def KeyError.message : KeyError → String
  | .unsupportedAlgorithm algorithm => s!"unsupported key wrap algorithm: {algorithm.name}"
  | .cipher error => error.message
  | .malformed defect => s!"malformed wrapped key: {defect.message}"
  | .service error => s!"KMS request failed: {error.message}"

/-- A wrapped key, and what is recorded beside it. -/
structure WrappedKey where
  algorithm : WrapAlgorithm
  bytes : Bytes
  description : Description
  deriving DecidableEq

/-- Something that wraps and unwraps content keys. -/
structure KeyProvider where
  wrap : (contentKey : Bytes) → Description → Action KeyError WrappedKey
  unwrap : Facility → (wrapped : Bytes) → WrapAlgorithm → Description → Except KeyError Bytes

end SealedStore

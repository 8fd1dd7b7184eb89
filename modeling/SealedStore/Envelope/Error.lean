import SealedStore.Text.Base64
import SealedStore.Text.Decimal

/-!
# Envelope headers and what can be wrong with them

The six headers of an envelope, and the causes for which a set of headers is no envelope.
-/

namespace SealedStore

/-- The headers of an envelope. -/
inductive Header where
  | contentKey
  | iv
  | description
  | scheme
  | wrapAlgorithm
  | tagLength
  deriving DecidableEq, Repr

/-- The name under which a header is stored. -/
def Header.name : Header → String
  | contentKey => "x-amz-key-v2"
  | iv => "x-amz-iv"
  | description => "x-amz-matdesc"
  | scheme => "x-amz-cek-alg"
  | wrapAlgorithm => "x-amz-wrap-alg"
  | tagLength => "x-amz-tag-len"

/-- What is wrong with the value of one header. -/
inductive FieldDefect where
  | base64 (defect : Base64.Defect)
  | ivLength (scheme : String) (expected actual : Nat)
  | number (defect : Decimal.Defect)
  | unsupportedTagLength (bits : Nat)
  deriving DecidableEq, Repr

/-- The wording of such a defect. -/
def FieldDefect.message : FieldDefect → String
  | base64 defect => defect.message
  | ivLength scheme expected actual => s!"{scheme} requires a {expected}-byte IV, got {actual}"
  | number defect => defect.message
  | unsupportedTagLength bits => s!"unsupported tag length {bits}, expected 128"

/-- Why something is no envelope. -/
inductive EnvelopeError where
  /-- The name of no algorithm. -/
  | unknownAlgorithm (name : String)
  /-- The text of no map of texts. -/
  | malformedMap
  /-- A header that every envelope has is absent. -/
  | missingField (header : Header)
  /-- The value of a header cannot be used. -/
  | invalidField (header : Header) (defect : FieldDefect)
  /-- The body of an instruction object is no envelope, for the reason given. -/
  | malformedInstruction (reason : String)
  deriving DecidableEq, Repr

/-- The wording of the error. -/
def EnvelopeError.message : EnvelopeError → String
  | unknownAlgorithm name => s!"unknown algorithm: {name}"
  | malformedMap => "malformed envelope map"
  | missingField header => s!"missing envelope field: {header.name}"
  | invalidField header defect => s!"invalid envelope field {header.name}: {defect.message}"
  | malformedInstruction reason => s!"malformed instruction file: {reason}"

end SealedStore

import SealedStore.Cipher.Session
import SealedStore.Envelope.Error

/-!
# Algorithm names

The schemes that encrypt content and the algorithms that wrap content keys, each under the one name
by which envelopes know it.
-/

namespace SealedStore

/-- How content is encrypted. -/
inductive Scheme where
  | cbc
  | ctr
  | gcm
  deriving DecidableEq, Repr

namespace Scheme

/-- All schemes, in the order in which they are listed. -/
def all : List Scheme := [cbc, ctr, gcm]

/-- The name in an envelope. -/
def name : Scheme → String
  | cbc => "AES/CBC/PKCS5Padding"
  | ctr => "AES/CTR/NoPadding"
  | gcm => "AES/GCM/NoPadding"

/-- The short label in a log. -/
def label : Scheme → String
  | cbc => "Cbc"
  | ctr => "Ctr"
  | gcm => "Gcm"

/-- The mode of the cipher. -/
def mode : Scheme → Mode
  | cbc => .cbc
  | ctr => .ctr
  | gcm => .gcm

/-- The length of the IV in bytes. -/
def ivLength (scheme : Scheme) : Nat := scheme.mode.ivLength

/-- Whether content carries a tag. -/
def authenticated (scheme : Scheme) : Bool := scheme.mode.authenticated

/-- The scheme of a name. -/
def ofName (name : String) : Except EnvelopeError Scheme :=
  match all.find? (·.name = name) with
  | some scheme => .ok scheme
  | none => .error (.unknownAlgorithm name)

end Scheme

/-- How a content key is wrapped. -/
inductive WrapAlgorithm where
  | kms
  | aesWrap
  | aesGcm
  | rsaOaep
  deriving DecidableEq, Repr

namespace WrapAlgorithm

/-- All wrap algorithms, in the order in which they are listed. -/
def all : List WrapAlgorithm := [kms, aesWrap, aesGcm, rsaOaep]

/-- The name in an envelope. -/
def name : WrapAlgorithm → String
  | kms => "kms"
  | aesWrap => "AESWrap"
  | aesGcm => "AES/GCM"
  | rsaOaep => "RSA-OAEP-SHA1"

/-- The short label in a log. -/
def label : WrapAlgorithm → String
  | kms => "Kms"
  | aesWrap => "AesKeyWrap"
  | aesGcm => "AesGcm"
  | rsaOaep => "RsaOaepSha1"

/-- The wrap algorithm of a name. -/
def ofName (name : String) : Except EnvelopeError WrapAlgorithm :=
  match all.find? (·.name = name) with
  | some algorithm => .ok algorithm
  | none => .error (.unknownAlgorithm name)

end WrapAlgorithm

end SealedStore

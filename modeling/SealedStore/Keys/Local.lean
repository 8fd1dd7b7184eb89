import SealedStore.Keys.Provider
import SealedStore.Text.Blank
import SealedStore.Text.Utf8

/-!
# Keys wrapped under a local master key

A local provider wraps by one of two algorithms, and unwraps what either has wrapped under the same
master key. In Galois counter mode the wrapped key is the IV, the ciphertext and the tag, one after
the other.
-/

namespace SealedStore

/-- The algorithms of a local provider. -/
inductive LocalAlgorithm where
  | aesWrap
  | aesGcm
  deriving DecidableEq, Repr

/-- The algorithm as it is recorded. -/
def LocalAlgorithm.recorded : LocalAlgorithm → WrapAlgorithm
  | .aesWrap => .aesWrap
  | .aesGcm => .aesGcm

/-- The recorded algorithm, if a local provider has it. -/
def LocalAlgorithm.ofRecorded? : WrapAlgorithm → Option LocalAlgorithm
  | .aesWrap => some .aesWrap
  | .aesGcm => some .aesGcm
  | .kms => none
  | .rsaOaep => none

/-- A master key and the algorithm by which it wraps. -/
structure LocalKeys where
  masterKey : Bytes
  algorithm : LocalAlgorithm
  deriving DecidableEq

namespace LocalKeys

/-- A local provider. The algorithm is checked before the master key. -/
def create (masterKey : Bytes) (algorithm : WrapAlgorithm) : Except KeyError LocalKeys :=
  match LocalAlgorithm.ofRecorded? algorithm with
  | none => .error (.unsupportedAlgorithm algorithm)
  | some supported =>
      if masterKey.length ≠ Aes.keyLength then
        .error (.cipher (.wrongLength .masterKey Aes.keyLength masterKey.length))
      else .ok ⟨masterKey, supported⟩

/-- A local provider whose master key is given in base64, blanks around it apart. -/
def ofBase64 (text : String) (algorithm : WrapAlgorithm) : Except KeyError LocalKeys :=
  match Base64.decodeBytes (Utf8.encode (Blank.trim text)) with
  | .error defect => .error (.malformed (.masterKey defect))
  | .ok masterKey => create masterKey algorithm

/-- What a log may show of a local provider. -/
def redacted (keys : LocalKeys) : String :=
  s!"SymmetricKeyProvider \x7b algorithm: {keys.algorithm.recorded.label}, .. \x7d"

/-- The IV of a wrapped key in Galois counter mode is 12 bytes long. -/
def ivLength : Nat := Scheme.gcm.ivLength

/-- A content key wrapped by key wrapping. -/
def wrapKeyWrap (keys : LocalKeys) (contentKey : Bytes) (facility : Facility) :
    Except CipherError Bytes := do
  let session ← facility.wrapSession keys.masterKey
  (session.process .encrypt contentKey).1

/-- A content key wrapped in Galois counter mode under the given IV. -/
def wrapGcm (keys : LocalKeys) (contentKey iv : Bytes) (facility : Facility) :
    Except CipherError Bytes := do
  let session ← facility.contentSession .gcm keys.masterKey iv []
  let (answer, ended) := session.process .encrypt contentKey
  let ciphertext ← answer
  match ended.tag? with
  | none => .error .missingTag
  | some tag => .ok (iv ++ ciphertext ++ tag)

/-- A content key unwrapped by key wrapping. -/
def unwrapKeyWrap (keys : LocalKeys) (wrapped : Bytes) (facility : Facility) :
    Except CipherError Bytes := do
  let session ← facility.wrapSession keys.masterKey
  (session.process .decrypt wrapped).1

/-- The IV, the ciphertext and the tag of a wrapped key. -/
def split (wrapped : Bytes) : Except CipherError (Bytes × Bytes × Bytes) :=
  match wrapped.slice? 0 ivLength,
      wrapped.slice? ivLength (wrapped.length - ivLength - Gcm.tagLength),
      wrapped.slice? (wrapped.length - Gcm.tagLength) Gcm.tagLength with
  | some iv, some ciphertext, some tag => .ok (iv, ciphertext, tag)
  | _, _, _ => .error .outOfBounds

/-- A content key unwrapped in Galois counter mode. There must be something between the IV and the
tag. -/
def unwrapGcm (keys : LocalKeys) (wrapped : Bytes) (facility : Facility) : Except KeyError Bytes :=
  if wrapped.length ≤ ivLength + Gcm.tagLength then
    .error (.malformed (.tooShort (ivLength + Gcm.tagLength) wrapped.length))
  else
    (do
      let (iv, ciphertext, tag) ← split wrapped
      let session ← facility.contentSession .gcm keys.masterKey iv tag
      (session.process .decrypt ciphertext).1).mapError .cipher

/-- The wrapped content key by the algorithm of the provider. -/
def wrapBytes (keys : LocalKeys) (contentKey : Bytes) : Action CipherError Bytes :=
  match keys.algorithm with
  | .aesWrap => do
      let facility ← get
      liftExcept (keys.wrapKeyWrap contentKey facility)
  | .aesGcm => do
      let iv ← Facility.draw ivLength
      let facility ← get
      liftExcept (keys.wrapGcm contentKey iv facility)

/-- The unwrapped content key, by the algorithm it was recorded with. -/
def unwrap (keys : LocalKeys) (facility : Facility) (wrapped : Bytes) (algorithm : WrapAlgorithm) :
    Except KeyError Bytes :=
  match LocalAlgorithm.ofRecorded? algorithm with
  | none => .error (.unsupportedAlgorithm algorithm)
  | some .aesWrap => (keys.unwrapKeyWrap wrapped facility).mapError .cipher
  | some .aesGcm => keys.unwrapGcm wrapped facility

/-- The provider. It records the description as it is, and does not look at it again. -/
def provider (keys : LocalKeys) : KeyProvider where
  wrap contentKey description := do
    let bytes ← (keys.wrapBytes contentKey).mapError .cipher
    return ⟨keys.algorithm.recorded, bytes, description⟩
  unwrap facility wrapped algorithm _ := keys.unwrap facility wrapped algorithm

end LocalKeys

end SealedStore

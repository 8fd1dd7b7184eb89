import SealedStore.Keys.Provider

/-!
# Keys wrapped by a key service

A remote provider has the service wrap content keys under one of the service's keys. The description
goes along as the context, with the name of that key added, and the service unwraps only in the
context in which it wrapped.
-/

namespace SealedStore

/-- A service that wraps and unwraps under keys of its own. An answer may come without the bytes
that were asked for. -/
structure KeyService where
  encrypt : (keyId : String) → (plaintext : Bytes) → (context : Description) →
    Except String (Option Bytes)
  decrypt : (keyId : String) → (ciphertext : Bytes) → (context : Description) →
    Except String (Option Bytes)

/-- A service that cannot be reached. -/
def KeyService.unreachable (reason : String) : KeyService where
  encrypt _ _ _ := .error reason
  decrypt _ _ _ := .error reason

/-- A key of a service. -/
structure RemoteKeys where
  service : KeyService
  keyId : String

namespace RemoteKeys

/-- The name under which the description tells the key. -/
def keyIdName : String := "kms_cmk_id"

/-- The description that is recorded beside a key wrapped here. -/
def recordedDescription (keys : RemoteKeys) (description : Description) : Description :=
  description.insert keyIdName keys.keyId

/-- The wrapped content key. -/
def wrap (keys : RemoteKeys) (contentKey : Bytes) (description : Description) :
    Except KeyServiceError WrappedKey :=
  let recorded := keys.recordedDescription description
  match keys.service.encrypt keys.keyId contentKey recorded with
  | .error reason => .error (.failed reason)
  | .ok none => .error .noCiphertext
  | .ok (some bytes) => .ok ⟨.kms, bytes, recorded⟩

/-- The unwrapped content key. -/
def unwrap (keys : RemoteKeys) (wrapped : Bytes) (description : Description) :
    Except KeyServiceError Bytes :=
  match keys.service.decrypt keys.keyId wrapped description with
  | .error reason => .error (.failed reason)
  | .ok none => .error .noPlaintext
  | .ok (some bytes) => .ok bytes

/-- The provider. It unwraps nothing that is recorded with another algorithm, and does not need the
facility. -/
def provider (keys : RemoteKeys) : KeyProvider where
  wrap contentKey description :=
    liftExcept ((keys.wrap contentKey description).mapError KeyError.service)
  unwrap _ wrapped algorithm description :=
    if algorithm = .kms then (keys.unwrap wrapped description).mapError .service
    else .error (.unsupportedAlgorithm algorithm)

end RemoteKeys

end SealedStore

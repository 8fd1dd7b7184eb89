import SealedStore.Envelope.Placement
import SealedStore.Keys.Provider

/-!
# The client

A client puts objects into a store encrypted under a content key of their own, and gets them back.
To put an object it prepares all it is going to write before it writes anything; the body is the
ciphertext, followed by the tag if the scheme has one. To get an object it takes the envelope from
the metadata if there is one, and else from the instruction object, whatever the client itself would
have written.
-/

namespace SealedStore

/-- Why a client did not put or get an object. -/
inductive ClientError where
  | cipher (error : CipherError)
  | envelope (error : EnvelopeError)
  | store (error : StoreError)
  | keys (error : KeyError)
  /-- There is no envelope for the object. -/
  | notEncrypted (key : String)
  /-- The body of the object is shorter than a tag. -/
  | truncated (length tagLength : Nat)
  deriving DecidableEq, Repr

namespace ClientError

/-- The wording of the error. -/
def message : ClientError → String
  | cipher error => error.message
  | envelope error => error.message
  | store error => error.message
  | keys error => error.message
  | notEncrypted key => s!"object {key} has no encryption envelope"
  | truncated length tagLength =>
      s!"object body is {length} bytes, shorter than its {tagLength}-byte tag"

/-- Whether the error shows that something was changed or opened with the wrong key. -/
def isIntegrityFailure : ClientError → Bool
  | cipher .authenticationFailure => true
  | cipher .keyIntegrityFailure => true
  | keys (.cipher .authenticationFailure) => true
  | keys (.cipher .keyIntegrityFailure) => true
  | _ => false

end ClientError

/-- A key provider, and how the client writes. -/
structure Client where
  provider : KeyProvider
  scheme : Scheme := .gcm
  placement : Placement := .objectMetadata

namespace Client

/-- The body of an object: the ciphertext and the tag, if there is one. -/
def sealBody (facility : Facility) (scheme : Scheme) (contentKey iv plaintext : Bytes) :
    Except CipherError Bytes := do
  let session ← facility.contentSession scheme contentKey iv []
  let (answer, ended) := session.process .encrypt plaintext
  let ciphertext ← answer
  return ciphertext ++ ended.tag

/-- The requests that put a body and its material under a key, in their order. -/
def requests (client : Client) (key : String) (body : Bytes) (material : Material) :
    List PutRequest :=
  match client.placement with
  | .objectMetadata => [(PutRequest.mk key .empty body).withEnvelope material]
  | .instructionFile =>
      [⟨key, .empty, body⟩,
        (PutRequest.mk key .empty []).instruction Placement.defaultSuffix material]

/-- All that a put has to prepare: the content key and the IV are drawn, the body is sealed, the key
is wrapped and the material is built. -/
def prepare (client : Client) (key : String) (plaintext : Bytes) (description : Description) :
    Action ClientError (List PutRequest) := do
  let contentKey ← (Facility.draw Aes.keyLength).mapError .cipher
  let iv ← (Facility.draw client.scheme.ivLength).mapError .cipher
  let facility ← get
  let body ← liftExcept
    ((sealBody facility client.scheme contentKey iv plaintext).mapError ClientError.cipher)
  let wrapped ← (client.provider.wrap contentKey description).mapError .keys
  let material ← liftExcept
    ((Draft.build ⟨client.scheme, wrapped.algorithm, wrapped.bytes, iv, none,
      wrapped.description⟩).mapError ClientError.envelope)
  return client.requests key body material

/-- Puts an object; the result comes with the facility and the store after it. -/
def put {σ : Type} (client : Client) (store : ObjectStore σ) (key : String) (plaintext : Bytes)
    (description : Description) (facility : Facility) (state : σ) :
    Except ClientError Unit × Facility × σ :=
  match client.prepare key plaintext description facility with
  | (.error error, next) => (.error error, next, state)
  | (.ok prepared, next) =>
      let (result, written) := store.putAll state prepared
      (result.mapError .store, next, written)

/-- The material of an object: from its metadata, or else from the instruction object. -/
def findMaterial {σ : Type} (store : ObjectStore σ) (state : σ) (key : String)
    (object : StoredObject) : Except ClientError Material :=
  if object.hasEnvelope then object.metadataMaterial.mapError .envelope
  else
    match store.get state (key ++ Placement.defaultSuffix) with
    | .ok instruction => instruction.instructionMaterial.mapError .envelope
    | .error (.notFound _) => .error (.notEncrypted key)
    | .error error => .error (.store error)

/-- The ciphertext and the tag of a body. -/
def splitBody (material : Material) (body : Bytes) : Except ClientError (Bytes × Bytes) :=
  if material.scheme.authenticated then
    let tagLength := material.tagBits?.getD tagBits / 8
    if body.length < tagLength then .error (.truncated body.length tagLength)
    else
      match body.splitEnd? tagLength with
      | some parts => .ok parts
      | none => .error (.cipher .outOfBounds)
  else .ok (body, [])

/-- The plaintext of a body. -/
def openBody (facility : Facility) (material : Material) (contentKey body : Bytes) :
    Except ClientError Bytes := do
  let (ciphertext, tag) ← splitBody material body
  (do
    let session ← facility.contentSession material.scheme contentKey material.iv tag
    (session.process .decrypt ciphertext).1).mapError .cipher

/-- Gets an object. -/
def get {σ : Type} (client : Client) (store : ObjectStore σ) (facility : Facility) (state : σ)
    (key : String) : Except ClientError Bytes := do
  let object ← (store.get state key).mapError .store
  let material ← findMaterial store state key object
  let contentKey ←
    (client.provider.unwrap facility material.wrappedKey material.wrapAlgorithm
      material.description).mapError .keys
  openBody facility material contentKey object.body

end Client

end SealedStore

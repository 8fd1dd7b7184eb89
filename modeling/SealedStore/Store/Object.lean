import SealedStore.Envelope.Headers

/-!
# Object stores

An object is a byte string with headers. A store keeps objects under keys; all that is asked of it
is that a request to put an object either succeeds or leaves the store as it was.
-/

namespace SealedStore

/-- What a store keeps under a key. -/
structure StoredObject where
  metadata : Headers
  body : Bytes
  deriving DecidableEq

/-- The wish to keep an object under a key. -/
structure PutRequest where
  key : String
  metadata : Headers
  body : Bytes
  deriving DecidableEq

/-- The object that a request is about. -/
def PutRequest.object (request : PutRequest) : StoredObject :=
  ⟨request.metadata, request.body⟩

/-- Why a store did not answer a request. -/
inductive StoreError where
  /-- There is no object under the key. -/
  | notFound (key : String)
  /-- The store itself failed. -/
  | backend (key reason : String)
  deriving DecidableEq, Repr

/-- The wording of the error. -/
def StoreError.message : StoreError → String
  | .notFound key => s!"object not found: {key}"
  | .backend key reason => s!"object store request for {key} failed: {reason}"

/-- A store with states of type `σ`. A failed put has no state after it: it leaves the one before.
-/
structure ObjectStore (σ : Type) where
  get : σ → (key : String) → Except StoreError StoredObject
  put : σ → PutRequest → Except StoreError σ

namespace ObjectStore

variable {σ : Type}

/-- The requests in order, up to the first that fails, and the state after them. -/
def putAll (store : ObjectStore σ) (state : σ) : List PutRequest → Except StoreError Unit × σ
  | [] => (.ok (), state)
  | request :: rest =>
      match store.put state request with
      | .ok next => store.putAll next rest
      | .error error => (.error error, state)

/-- A put replaces the object under its key and no other. -/
def Replacing (store : ObjectStore σ) : Prop :=
  ∀ state request next, store.put state request = .ok next →
    store.get next request.key = .ok request.object ∧
      ∀ key, key ≠ request.key → store.get next key = store.get state key

/-- A store that cannot be reached. -/
def unreachable (reason : String) : ObjectStore Unit where
  get _ key := .error (.backend key reason)
  put _ request := .error (.backend request.key reason)

end ObjectStore

/-- A store in memory is a map of its objects. -/
abbrev MemoryStore := TextMap StoredObject

namespace MemoryStore

/-- The store in memory. Nothing goes wrong in it but that a key is absent. -/
def store : ObjectStore MemoryStore where
  get objects key :=
    match objects.get? key with
    | some object => .ok object
    | none => .error (.notFound key)
  put objects request := .ok (objects.insert request.key request.object)

/-- The store with the object under a key changed, provided there is one. -/
def modify? (objects : MemoryStore) (key : String) (change : StoredObject → StoredObject) :
    Option MemoryStore :=
  (objects.get? key).map fun object ↦ objects.insert key (change object)

end MemoryStore

end SealedStore

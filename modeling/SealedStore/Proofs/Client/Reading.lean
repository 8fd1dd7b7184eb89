import SealedStore.Proofs.Client.Body
import SealedStore.Proofs.Envelope.Placement

/-!
# What a read answers

A read depends on two objects at most (`get_congr`). It answers a plaintext exactly if the envelope
of the object is there, its content key can be unwrapped, and sealing that plaintext under them
gives the body that is stored (`get_eq_ok_iff_sealed`); nothing else in a store is ever read as a
plaintext.
-/

namespace SealedStore

namespace Client

variable {σ τ : Type} {client : Client} {store : ObjectStore σ} {facility : Facility} {state : σ}
  {key : String} {object : StoredObject} {material : Material} {contentKey plaintext : Bytes}

/-- The envelope of an object is the one in its metadata, and without one there the one in the
instruction object. -/
theorem findMaterial_eq_ok_iff :
    findMaterial store state key object = .ok material ↔
      if object.hasEnvelope then object.metadataMaterial = .ok material
      else ∃ instruction, store.get state (key ++ Placement.defaultSuffix) = .ok instruction ∧
        instruction.instructionMaterial = .ok material := by
  unfold findMaterial
  split
  next => rw [Outcome.mapError_eq_ok_iff]
  next =>
    split
    next instruction hfound =>
      rw [Outcome.mapError_eq_ok_iff, hfound]
      constructor
      · intro hmaterial
        exact ⟨instruction, rfl, hmaterial⟩
      · intro hread
        obtain ⟨_, hsame, hmaterial⟩ := hread
        cases hsame
        exact hmaterial
    next missing =>
      rw [missing]
      constructor
      · intro hfailed
        cases hfailed
      · intro hread
        obtain ⟨_, hfailed, _⟩ := hread
        cases hfailed
    next error _ hfailure =>
      rw [hfailure]
      constructor
      · intro hfailed
        cases hfailed
      · intro hread
        obtain ⟨_, hfailed, _⟩ := hread
        cases hfailed

/-- Whichever envelope it is, the material is valid. -/
theorem valid_of_findMaterial (hmaterial : findMaterial store state key object = .ok material) :
    material.Valid := by
  rw [findMaterial_eq_ok_iff] at hmaterial
  split at hmaterial
  next => exact Headers.valid_of_material hmaterial
  next =>
    obtain ⟨instruction, -, hread⟩ := hmaterial
    exact StoredObject.valid_of_instructionMaterial hread

/-- What a client reads from a body under given material. -/
def openWith (client : Client) (facility : Facility) (material : Material) (body : Bytes) :
    Except ClientError Bytes := do
  let contentKey ←
    (client.provider.unwrap facility material.wrappedKey material.wrapAlgorithm
      material.description).mapError .keys
  openBody facility material contentKey body

/-- Once the object is found, reading is finding its material and opening its body with it. -/
theorem get_of_object (hobject : store.get state key = .ok object) :
    client.get store facility state key =
      findMaterial store state key object >>= fun material ↦
        client.openWith facility material object.body := by
  unfold get
  rw [hobject]
  rfl

/-- Once the material is found as well, reading is opening the body. -/
theorem get_of_material (hobject : store.get state key = .ok object)
    (hmaterial : findMaterial store state key object = .ok material) :
    client.get store facility state key = client.openWith facility material object.body := by
  rw [get_of_object hobject, hmaterial]
  rfl

/-- Once the content key is unwrapped, opening is what is left. -/
theorem openWith_of_unwrap {body : Bytes}
    (hkey : client.provider.unwrap facility material.wrappedKey material.wrapAlgorithm
      material.description = .ok contentKey) :
    client.openWith facility material body = openBody facility material contentKey body := by
  rw [openWith, hkey]
  rfl

/-- An object with an envelope is read under that envelope, be there another or not. -/
theorem get_of_envelope (hobject : store.get state key = .ok object)
    (henvelope : object.hasEnvelope) :
    client.get store facility state key =
      object.metadataMaterial.mapError .envelope >>= fun material ↦
        client.openWith facility material object.body := by
  rw [get_of_object hobject, findMaterial, if_pos henvelope]

/-- An object without an envelope is read under whatever instruction object stands beside it. -/
theorem get_of_bare (hobject : store.get state key = .ok object)
    (hbare : object.hasEnvelope = false) :
    client.get store facility state key =
      match store.get state (key ++ Placement.defaultSuffix) with
      | .ok instruction =>
          instruction.instructionMaterial.mapError .envelope >>= fun material ↦
            client.openWith facility material object.body
      | .error (.notFound _) => .error (.notEncrypted key)
      | .error failure => .error (.store failure) := by
  rw [get_of_object hobject, findMaterial, if_neg (by rw [hbare]; exact Bool.false_ne_true)]
  cases store.get state (key ++ Placement.defaultSuffix) with
  | ok instruction => rfl
  | error failure => cases failure <;> rfl

/-- A read depends on the object under the key, and on the instruction object if there is no
envelope in the metadata. -/
theorem get_congr {states : σ} {other : ObjectStore τ} {others : τ}
    (hobject : store.get states key = other.get others key)
    (hinstruction : ∀ object, store.get states key = .ok object → object.hasEnvelope = false →
      store.get states (key ++ Placement.defaultSuffix) =
        other.get others (key ++ Placement.defaultSuffix)) :
    client.get store facility states key = client.get other facility others key := by
  cases hfound : store.get states key with
  | error error =>
      unfold get
      rw [← hobject, hfound]
      rfl
  | ok object =>
      rw [get_of_object hfound, get_of_object (hobject ▸ hfound)]
      have hsame : findMaterial store states key object = findMaterial other others key object := by
        unfold findMaterial
        cases henvelope : object.hasEnvelope with
        | true => rfl
        | false => rw [hinstruction object hfound henvelope]
      rw [hsame]

/-- A read answers a plaintext if and only if the object is there, its envelope is read (from its
metadata if the content key stands there, and else from the instruction object), the provider
unwraps the content key of the envelope by the algorithm recorded there, and the body of the object
is what the plaintext is sealed to under that key, in the scheme and with the IV of the envelope.
What that body is in each of the schemes is `sealBody_eq_ok_iff`. -/
theorem get_eq_ok_iff_sealed (client : Client) (store : ObjectStore σ) (facility : Facility)
    (state : σ) (key : String) (plaintext : Bytes) :
    client.get store facility state key = .ok plaintext ↔
      ∃ object material contentKey,
        store.get state key = .ok object ∧
        (if object.hasEnvelope then object.metadataMaterial = .ok material
          else ∃ instruction, store.get state (key ++ Placement.defaultSuffix) = .ok instruction ∧
            instruction.instructionMaterial = .ok material) ∧
        client.provider.unwrap facility material.wrappedKey material.wrapAlgorithm
          material.description = .ok contentKey ∧
        contentKey.length = Aes.keyLength ∧
        sealBody facility material.scheme contentKey material.iv plaintext = .ok object.body := by
  simp only [get, Outcome.bind_eq_ok_iff, Outcome.mapError_eq_ok_iff]
  constructor
  · intro hsteps
    obtain ⟨object, hobject, material, hmaterial, contentKey, hunwrap, hopened⟩ := hsteps
    have hsealed := (openBody_eq_ok_iff (valid_of_findMaterial hmaterial)).mp hopened
    exact ⟨object, material, contentKey, hobject, findMaterial_eq_ok_iff.mp hmaterial, hunwrap,
      length_of_sealBody hsealed, hsealed⟩
  · intro hsteps
    obtain ⟨object, material, contentKey, hobject, hmaterial, hunwrap, -, hsealed⟩ := hsteps
    have hfound : findMaterial store state key object = .ok material :=
      findMaterial_eq_ok_iff.mpr hmaterial
    exact ⟨object, hobject, material, hfound, contentKey, hunwrap,
      (openBody_eq_ok_iff (valid_of_findMaterial hfound)).mpr hsealed⟩

end Client

end SealedStore

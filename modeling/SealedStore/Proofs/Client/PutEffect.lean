import SealedStore.Proofs.Client.Party

/-!
# What a put does to the store

A put writes when all else is done: the content key is wrapped and the body is sealed before the
store is looked at. Read `put_effect` first: a put that fails for another reason than the store has
written nothing, and one that succeeds has replaced the object under its key, the instruction object
if it makes one, and nothing else.
-/

namespace SealedStore

/-- The length of the body of an object, from that of its plaintext. Padding fills up the last block
and makes a block of its own after a full one; a tag comes on top. -/
def Scheme.bodyLength (scheme : Scheme) (length : Nat) : Nat :=
  match scheme with
  | cbc => (length / blockLength + 1) * blockLength
  | ctr => length
  | gcm => length + Gcm.tagLength

namespace Client

variable {σ : Type} {client : Client} {store : ObjectStore σ} {facility next : Facility}
  {state written : σ} {key : String} {plaintext body : Bytes} {description : Description}
  {material : Material}

/-- The plaintext goes into the length of its body only by its own length. -/
theorem length_body_eq {scheme : Scheme} {contentKey iv : Bytes}
    (hseal : sealBody facility scheme contentKey iv plaintext = .ok body) :
    body.length = scheme.bodyLength plaintext.length := by
  cases scheme with
  | cbc =>
      obtain ⟨-, typedKey, typedIv, -, -, -, rfl⟩ := sealBody_eq_ok_iff.mp hseal
      rw [List.length_append, Scheme.length_tag, Scheme.bodyLength, Nat.mul_comm]
      exact Cbc.length_ciphertext _ _ _
  | ctr => exact length_body_of_sealBody (by decide) hseal
  | gcm => exact length_body_of_sealBody (by decide) hseal

/-- The objects of a store after a put, and those before it. With the envelope in the metadata,
there is nothing in the metadata but the envelope, and one object is replaced. With an instruction
object the metadata is empty, and two objects are replaced. -/
structure Leaves (client : Client) (store : ObjectStore σ) (state written : σ) (key : String)
    (body : Bytes) (material : Material) : Prop where
  enveloped : client.placement = .objectMetadata →
    store.get written key = .ok ⟨material.headers, body⟩
  bare : client.placement = .instructionFile → store.get written key = .ok ⟨.empty, body⟩
  instruction : client.placement = .instructionFile →
    store.get written (key ++ Placement.defaultSuffix) =
      .ok ⟨TextMap.empty.insert Placement.markerName Placement.markerValue,
        Utf8.encode (JsonObject.render material.headers)⟩
  others : ∀ other, other ≠ key →
    (client.placement = .instructionFile → other ≠ key ++ Placement.defaultSuffix) →
    store.get written other = store.get state other

/-- Once the requests of a put are answered, the store has its objects, and the others as before. -/
theorem leaves_of_putAll (hreplacing : store.Replacing)
    (hwrites : store.putAll state (client.requests key body material) = (.ok (), written)) :
    client.Leaves store state written key body material := by
  have hget := ObjectStore.get_of_putAll hreplacing hwrites
  refine ⟨fun hplacement ↦ ?_, fun hplacement ↦ ?_, fun hplacement ↦ ?_,
    fun other hkey hsuffix ↦ ?_⟩
  · rw [hget, lastUnder?_requests, objectRequest, hplacement]
    simp only [PutRequest.object, PutRequest.withEnvelope, TextMap.insertAll_empty]
  · rw [hget, lastUnder?_requests, objectRequest, hplacement]
    rfl
  · rw [hget, lastUnder?_suffix_requests, instructionRequest?, hplacement]
    rfl
  · rw [hget]
    cases hlast : lastUnder? PutRequest.key other (client.requests key body material) with
    | none => rfl
    | some request =>
        obtain ⟨hmem, hother⟩ := mem_of_lastUnder? hlast
        rw [requests_eq] at hmem
        rcases List.mem_cons.mp hmem with rfl | hinstruction
        · exact absurd (hother.symm.trans (key_objectRequest ..)) hkey
        · have hrequest := Option.mem_toList.mp hinstruction
          exact absurd (hother.symm.trans (key_of_instructionRequest? hrequest))
            (hsuffix (placement_of_instructionRequest? hrequest))

/-- With the envelope in the metadata there is one request, and if it fails nothing has changed. -/
theorem putAll_error_of_objectMetadata {reason : StoreError}
    (hplacement : client.placement = .objectMetadata)
    (hwrites : store.putAll state (client.requests key body material) = (.error reason, written)) :
    written = state := by
  rw [requests, hplacement] at hwrites
  unfold ObjectStore.putAll at hwrites
  split at hwrites
  next => cases hwrites
  next =>
    cases hwrites
    rfl

/-- What a put does, in a store whose puts replace. All of it is about one put, with any answer.

* If it fails for another reason than the store, the store is as it was. The same put on any other
  store fails in the same way: the store has not been looked at.
* If it fails and the envelope goes into the metadata, the store is as it was.
* If the store has changed, or has failed the put, or the put has succeeded, then all else was done:
  there are a body and its material, made under the first two draws.
* If it succeeds, the store has the object under the key and the instruction object if the client
  makes one, all other objects are as before, and the length of the body is that of the scheme. -/
theorem put_effect (store : ObjectStore σ) (hreplacing : store.Replacing) (client : Client)
    (key : String) (plaintext : Bytes) (description : Description) (facility next : Facility)
    (state written : σ) (answer : Except ClientError Unit)
    (hput : client.put store key plaintext description facility state = (answer, next, written)) :
    (∀ error, answer = .error error → (∀ reason, error ≠ .store reason) →
      written = state ∧ ∀ (τ : Type) (other : ObjectStore τ) (others : τ),
        client.put other key plaintext description facility others =
          (.error error, next, others)) ∧
    (∀ error, answer = .error error → client.placement = .objectMetadata → written = state) ∧
    (written ≠ state ∨ answer = .ok () ∨ (∃ reason, answer = .error (.store reason)) →
      facility.isOpen ∧ ∃ body material,
        client.Makes plaintext description (facility.source.bytes facility.drawn Aes.keyLength)
          (facility.source.bytes (facility.drawn + 1) client.scheme.ivLength)
          (facility.afterDraws 2) next body material) ∧
    (answer = .ok () → ∃ body material,
      client.Makes plaintext description (facility.source.bytes facility.drawn Aes.keyLength)
        (facility.source.bytes (facility.drawn + 1) client.scheme.ivLength)
        (facility.afterDraws 2) next body material ∧
      client.Leaves store state written key body material ∧
      body.length = client.scheme.bodyLength plaintext.length) := by
  rcases hprepare : client.prepare key plaintext description facility with ⟨failure | requests, last⟩
  · -- Nothing has been prepared, so nothing is written.
    rw [put_of_prepare_error hprepare] at hput
    cases hput
    have hcause := ne_store_of_prepare_error hprepare
    refine ⟨fun error herror _ ↦ ⟨rfl, fun τ other others ↦ ?_⟩, fun _ _ _ ↦ rfl, ?_, ?_⟩
    · cases herror
      exact put_of_prepare_error hprepare
    · rintro (hchanged | hok | ⟨reason, hstore⟩)
      · exact absurd rfl hchanged
      · cases hok
      · exact absurd (Except.error.inj hstore) (hcause reason)
    · intro hok
      cases hok
  · -- All is prepared, so the answer is that of the store.
    obtain ⟨hopen, body, material, hmakes, rfl⟩ := prepare_eq_ok_iff_makes.mp hprepare
    rw [put_of_prepare_ok hprepare] at hput
    rcases hwrites : store.putAll state (client.requests key body material) with
      ⟨reason | done, after⟩
    · rw [hwrites] at hput
      cases hput
      refine ⟨fun error herror hcause ↦ ?_, fun _ _ hplacement ↦ ?_,
        fun _ ↦ ⟨hopen, body, material, hmakes⟩, fun hok ↦ ?_⟩
      · cases herror
        exact absurd rfl (hcause reason)
      · exact putAll_error_of_objectMetadata hplacement hwrites
      · cases hok
    · rw [hwrites] at hput
      cases hput
      refine ⟨fun error herror ↦ ?_, fun error herror ↦ ?_,
        fun _ ↦ ⟨hopen, body, material, hmakes⟩, fun _ ↦ ⟨body, material, hmakes, ?_, ?_⟩⟩
      · cases herror
      · cases herror
      · exact leaves_of_putAll hreplacing hwrites
      · exact length_body_eq (hmakes.sealBody_eq facility hopen)

/-- A report of 16 bytes is put beside a letter, with padding and an instruction object: its body
has two blocks, its metadata is empty, and the letter stays. -/
theorem put_effect_beside_letter :
    ∃ body next written,
      (Party.client ⟨.aesGcm, .cbc, .instructionFile⟩ (Bytes.zeros 32)).put MemoryStore.store
          "report" (Bytes.zeros 16) .empty exampleFacility
          (TextMap.empty.insert "letter" ⟨.empty, [9]⟩) = (.ok (), next, written) ∧
      MemoryStore.store.get written "report" = .ok ⟨.empty, body⟩ ∧ body.length = 32 ∧
      MemoryStore.store.get written "letter" = .ok ⟨.empty, [9]⟩ := by
  obtain ⟨requests, next, hprepare, -⟩ := @Party.exists_prepare_eq_ok
    ⟨.aesGcm, .cbc, .instructionFile⟩ (Bytes.zeros 32) (Bytes.zeros 16) exampleFacility rfl rfl
    trivial "report" .empty
  have hput := put_eq_ok_iff.mpr ⟨requests, hprepare,
    MemoryStore.putAll_store (TextMap.empty.insert "letter" ⟨.empty, [9]⟩) requests⟩
  obtain ⟨-, -, -, hdone⟩ := put_effect MemoryStore.store MemoryStore.replacing_store _ _ _ _ _ _ _
    _ _ hput
  obtain ⟨body, material, -, hleaves, hlength⟩ := hdone rfl
  refine ⟨body, next, _, hput, hleaves.bare rfl, hlength, ?_⟩
  rw [hleaves.others "letter" (by decide) fun _ ↦ by decide]
  rfl

end Client

end SealedStore

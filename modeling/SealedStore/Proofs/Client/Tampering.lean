import SealedStore.Proofs.Cipher.Gcm.Tampering
import SealedStore.Proofs.Client.Party

/-!
# Objects that were tampered with

A body sealed in Galois counter mode is a ciphertext and the tag behind it, each protected against
changes of the other kind (`exists_parts_of_sealBody`). So whoever xors something into one block of
the ciphertext of a stored object, or into its tag, makes every read of it fail, and fail as a
failure of integrity: `tampering_detected`.
-/

namespace SealedStore

/-- The object with a mask added to its body. -/
def StoredObject.masked (mask : Bytes) (object : StoredObject) : StoredObject :=
  { object with body := object.body.xor mask }

namespace Client

variable {σ : Type} {store : ObjectStore σ} {state other : σ} {key : String}
  {object changed : StoredObject} {facility : Facility} {material : Material}
  {contentKey iv plaintext body data given mask : Bytes}

/-- A mask over a body in Galois counter mode that changes something inside one block of the
ciphertext, under a content key that does not hash under zero, or else inside the tag. -/
inductive LocalMask (contentKey : Bytes) (length : Nat) (mask : Bytes) : Prop
  | ciphertext (index : Nat) (hhash : Gcm.hashKey? contentKey ≠ some 0)
      (hmask : Bytes.ChangesInside
        (fun place ↦ Bytes.InBlock index place ∧ place + Gcm.tagLength < length) mask)
  | tag (hmask : Bytes.ChangesInside (fun place ↦ length ≤ place + Gcm.tagLength) mask)

/-- A body in Galois counter mode is a ciphertext and its tag. -/
theorem exists_parts_of_sealBody
    (hseal : sealBody facility .gcm contentKey iv plaintext = .ok body) :
    ∃ data given, body = data ++ given ∧ data.length = plaintext.length ∧
      given.length = Gcm.tagLength ∧ Gcm.TamperEvident contentKey iv given data := by
  obtain ⟨-, typedKey, typedIv, hkey, hiv, -, rfl⟩ := sealBody_eq_ok_iff.mp hseal
  exact ⟨_, _, rfl, Gcm.length_ciphertext _ _ _, Gcm.length_messageTag _ _ _,
    Gcm.tamperEvident hkey hiv⟩

/-- What a session refuses is not opened. -/
theorem openBody_of_refuses (hvalid : material.Valid) (hscheme : material.scheme = .gcm)
    (hopen : facility.isOpen) (hgiven : given.length = Gcm.tagLength)
    (hrefuses : Gcm.Refuses contentKey material.iv given data) :
    openBody facility material contentKey (data ++ given) =
      .error (.cipher .authenticationFailure) := by
  obtain ⟨session, hcreate, hanswer⟩ := hrefuses
  have hsplit : splitBody material (data ++ given) = .ok (data, given) := by
    rw [splitBody_eq_ok_iff hvalid, hscheme]
    exact ⟨rfl, hgiven⟩
  have hsession : facility.contentSession material.scheme contentKey material.iv given =
      .ok session := by
    rw [hscheme, Facility.contentSession, if_pos hopen]
    exact hcreate
  rw [openBody, hsplit]
  refine Outcome.mapError_eq_error_iff.mpr ⟨_, ?_, rfl⟩
  exact Outcome.bind_eq_error_iff.mpr (.inr ⟨session, hsession, hanswer⟩)

/-- A body that was sealed is not opened under a local mask. -/
theorem openBody_xor (hvalid : material.Valid) (hscheme : material.scheme = .gcm)
    (hopen : facility.isOpen)
    (hseal : sealBody facility material.scheme contentKey material.iv plaintext = .ok body)
    (hlength : mask.length = body.length) (hlocal : LocalMask contentKey body.length mask) :
    openBody facility material contentKey (body.xor mask) =
      .error (.cipher .authenticationFailure) := by
  rw [hscheme] at hseal
  obtain ⟨data, given, rfl, -, hgiven, hevident⟩ := exists_parts_of_sealBody hseal
  -- One part of the body stays as it was, so a session compares it with a changed other part.
  cases hlocal with
  | ciphertext index hhash hmask =>
      obtain ⟨changed, hxor, hchanged⟩ :=
        (hmask.differInside hlength).exists_append_left fun place hplace ↦ by
          have hlow := hplace.2
          rw [List.length_append, hgiven] at hlow
          omega
      rw [hxor]
      exact openBody_of_refuses hvalid hscheme hopen hgiven
        (hevident.ciphertext hhash index changed (hchanged.mono fun _ hplace ↦ hplace.1))
  | tag hmask =>
      obtain ⟨changed, hxor, hsame, hchanged⟩ :=
        (hmask.differInside hlength).exists_append_right fun place hplace ↦ by
          rw [List.length_append, hgiven] at hplace
          omega
      rw [hxor]
      exact openBody_of_refuses hvalid hscheme hopen (hsame.trans hgiven)
        (hevident.tag changed (hsame.trans hgiven) hchanged)

/-- The material of an object does not depend on its body. -/
theorem findMaterial_congr (hmetadata : changed.metadata = object.metadata)
    (hinstruction : store.get other (key ++ Placement.defaultSuffix) =
      store.get state (key ++ Placement.defaultSuffix)) :
    findMaterial store other key changed = findMaterial store state key object := by
  unfold findMaterial StoredObject.hasEnvelope StoredObject.metadataMaterial
  rw [hmetadata, hinstruction]

end Client

namespace Party

variable {writer : Party} {masterKey plaintext : Bytes} {key : String} {description : Description}
  {facility next : Facility} {objects written : MemoryStore}

/-- After a put, the object is under its key, and its material is found for any object with its
metadata in its place. The body is sealed under the first draw as the content key. -/
theorem exists_object_of_put
    (hput : (writer.client masterKey).put MemoryStore.store key plaintext description facility
      objects = (.ok (), next, written)) :
    ∃ object material,
      written.get? key = some object ∧ material.scheme = writer.scheme ∧
        Sealed masterKey (facility.source.bytes facility.drawn Aes.keyLength) plaintext material
          object.body ∧
        ∀ changed : StoredObject, changed.metadata = object.metadata →
          Client.findMaterial MemoryStore.store (written.insert key changed) key changed =
            .ok material := by
  obtain ⟨requests, hprepare, hrequests⟩ := Client.put_eq_ok_iff.mp hput
  obtain ⟨material, body, hsealed, hscheme, rfl⟩ := sealed_of_prepare_draw hprepare
  have hget := ObjectStore.get_of_putAll MemoryStore.replacing_store hrequests
  refine ⟨((writer.client masterKey).objectRequest key body material).object, material, ?_,
    hscheme, ?_, fun changed hmetadata ↦ ?_⟩
  · rw [← MemoryStore.get_eq_ok_iff, hget, Client.lastUnder?_requests]
  · rw [Client.body_objectRequest]
    exact hsealed
  · have hinstruction := MemoryStore.get_insert_of_ne written changed
      (Placement.append_suffix_ne key)
    rw [Client.findMaterial_congr hmetadata hinstruction]
    refine Client.findMaterial_objectRequest hsealed.valid fun request hrequest ↦ ?_
    rw [hget, Client.lastUnder?_suffix_requests, hrequest]

end Party

/-- Local changes are found out. Under every key and IV of the right lengths there is a session in
Galois counter mode, which gives every message within the limit a ciphertext and a tag. With
whatever it gives, a session that holds the tag refuses all that differs from the ciphertext inside
one block only, if the key does not hash under zero, and a session that holds any other tag of that
length refuses the ciphertext.
So, once an object is put in that scheme into a store in memory, a mask over its body that changes
something inside one block of the ciphertext (if the content key, the first draw of the put, does
not hash under zero) or inside the tag makes every read by any client over the same master key end
with a failure of authentication, which counts as a failure of integrity. -/
theorem tampering_detected :
    (∀ keyBytes ivBytes : Bytes, keyBytes.length = Aes.keyLength →
      ivBytes.length = Mode.gcm.ivLength →
      ∃ session, Session.create .gcm keyBytes ivBytes [] = .ok session ∧
        (∀ message, message.length ≤ Gcm.maxMessage → ∃ data given,
          (session.process .encrypt message).1 = .ok data ∧
            (session.process .encrypt message).2.tag? = some given) ∧
        ∀ message data given, (session.process .encrypt message).1 = .ok data →
          (session.process .encrypt message).2.tag? = some given →
            data.length = message.length ∧ Gcm.TamperEvident keyBytes ivBytes given data) ∧
    ∀ (writer reader : Party) (masterKey plaintext : Bytes) (key : String)
      (description : Description) (facility next opened : Facility) (objects written : MemoryStore),
      writer.scheme = .gcm → opened.isOpen →
      (writer.client masterKey).put MemoryStore.store key plaintext description facility objects =
        (.ok (), next, written) →
      ∃ object, written.get? key = some object ∧
        object.body.length = plaintext.length + Gcm.tagLength ∧
        ∀ mask : Bytes, mask.length = object.body.length →
          Client.LocalMask (facility.source.bytes facility.drawn Aes.keyLength) object.body.length
            mask →
          ∃ tampered error, written.modify? key (.masked mask) = some tampered ∧
            (reader.client masterKey).get MemoryStore.store opened tampered key = .error error ∧
            error = .cipher .authenticationFailure ∧ error.isIntegrityFailure := by
  refine ⟨fun keyBytes ivBytes hkey hiv ↦ Gcm.exists_sealing hkey hiv, ?_⟩
  intro writer reader masterKey plaintext key description facility next opened objects written
    hscheme hopen hput
  obtain ⟨object, material, hobject, hmaterialScheme, hsealed, hfind⟩ :=
    Party.exists_object_of_put hput
  have hgcm : material.scheme = .gcm := hmaterialScheme.trans hscheme
  have hseal := hsealed.sealBody_eq opened hopen
  refine ⟨object, hobject, ?_, fun mask hlength hlocal ↦ ?_⟩
  · rw [Client.length_body_of_sealBody (by rw [hgcm]; simp) hseal, hgcm]
    rfl
  · refine ⟨written.insert key (object.masked mask), _, ?_, ?_, rfl, rfl⟩
    · rw [MemoryStore.modify?, hobject, Option.map_some]
    · have hchanged := MemoryStore.get_insert_self written key (object.masked mask)
      rw [Client.get_of_material hchanged (hfind (object.masked mask) rfl),
        hsealed.openWith_eq reader hopen]
      exact Client.openBody_xor hsealed.valid hgcm hopen hseal hlength hlocal

/-- The top bit of the only byte of a message is flipped. The master key and the content key do not
hash under zero. -/
theorem tampering_detected_example :
    Gcm.hashKey? (Bytes.zeros Aes.keyLength) ≠ some 0 ∧
      (∃ data given, Gcm.TamperEvident (Bytes.zeros Aes.keyLength) (Bytes.zeros 12) given data ∧
        data.length = 1) ∧
      Client.LocalMask (exampleFacility.source.bytes 0 Aes.keyLength) 17 (0x80 :: Bytes.zeros 16) ∧
      ∃ next written tampered,
        (Party.client ⟨.aesWrap, .gcm, .instructionFile⟩ (Bytes.zeros Aes.keyLength)).put
          MemoryStore.store "report" [7] .empty exampleFacility .empty = (.ok (), next, written) ∧
        written.modify? "report" (.masked (0x80 :: Bytes.zeros 16)) = some tampered ∧
        (Party.client ⟨.aesGcm, .ctr, .objectMetadata⟩ (Bytes.zeros Aes.keyLength)).get
          MemoryStore.store exampleFacility tampered "report" =
            .error (.cipher .authenticationFailure) := by
  obtain ⟨hsessions, hobjects⟩ := tampering_detected
  obtain ⟨session, -, hgives, hprotects⟩ :=
    hsessions (Bytes.zeros Aes.keyLength) (Bytes.zeros 12) rfl rfl
  obtain ⟨data, given, hdata, hgiven⟩ := hgives [7] (by decide)
  obtain ⟨hlength, hevident⟩ := hprotects [7] data given hdata hgiven
  have hlocal : Client.LocalMask (exampleFacility.source.bytes 0 Aes.keyLength) 17
      (0x80 :: Bytes.zeros 16) := by
    refine .ciphertext 0 (by decide +kernel) ⟨⟨0x80, by decide, by decide⟩, ?_⟩
    intro place byte hplace hne
    cases place with
    | zero => exact ⟨rfl, by decide⟩
    | succ place =>
        rw [List.getElem?_cons_succ] at hplace
        exact absurd (List.eq_of_mem_replicate (List.mem_of_getElem? hplace)) hne
  obtain ⟨requests, next, hprepare, -⟩ := @Party.exists_prepare_eq_ok
    ⟨.aesWrap, .gcm, .instructionFile⟩ (Bytes.zeros Aes.keyLength) [7] exampleFacility rfl rfl
    (by show 1 ≤ Gcm.maxMessage; decide) "report" .empty
  have hput := Client.put_eq_ok_iff.mpr
    ⟨requests, hprepare, MemoryStore.putAll_store .empty requests⟩
  obtain ⟨object, -, hbody, hmasks⟩ := hobjects ⟨.aesWrap, .gcm, .instructionFile⟩
    ⟨.aesGcm, .ctr, .objectMetadata⟩ _ [7] "report" .empty _ next exampleFacility .empty _ rfl rfl
    hput
  obtain ⟨tampered, _, htampered, hget, rfl, -⟩ :=
    hmasks (0x80 :: Bytes.zeros 16) (hbody ▸ rfl) (by rw [hbody]; exact hlocal)
  exact ⟨by decide +kernel, ⟨data, given, hevident, hlength⟩, hlocal, next, _, tampered, hput,
    htampered, hget⟩

end SealedStore

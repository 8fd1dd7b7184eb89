import SealedStore.Proofs.Client.Reading
import SealedStore.Proofs.Store

/-!
# What a put prepares and writes

A put prepares a body and its material, and then writes them (`put_eq_ok_iff`). What it writes is a
request for the object and at most one for its instruction object (`requests_eq`), and once they are
answered the object and its material are found again (`findMaterial_objectRequest`).
-/

namespace SealedStore

/-- The request for the instruction object that goes with the object under a key. -/
def PutRequest.instructionFor (key : String) (material : Material) : PutRequest :=
  (PutRequest.mk key .empty []).instruction Placement.defaultSuffix material

@[simp] theorem PutRequest.key_instructionFor (key : String) (material : Material) :
    (instructionFor key material).key = key ++ Placement.defaultSuffix :=
  rfl

namespace Client

variable {σ : Type} {client : Client} {store : ObjectStore σ} {facility next : Facility}
  {state written : σ} {key : String} {plaintext : Bytes} {description : Description}
  {requests : List PutRequest}

/-- Preparing succeeds if each of its steps does: the content key and the IV are drawn, the body is
sealed, the content key is wrapped, and the material is built. -/
theorem prepare_eq_ok_iff :
    client.prepare key plaintext description facility = (.ok requests, next) ↔
      ∃ contentKey first iv second body wrapped material,
        Facility.draw Aes.keyLength facility = (.ok contentKey, first) ∧
        Facility.draw client.scheme.ivLength first = (.ok iv, second) ∧
        sealBody second client.scheme contentKey iv plaintext = .ok body ∧
        client.provider.wrap contentKey description second = (.ok wrapped, next) ∧
        Draft.build ⟨client.scheme, wrapped.algorithm, wrapped.bytes, iv, none,
          wrapped.description⟩ = .ok material ∧
        requests = client.requests key body material := by
  unfold prepare
  simp only [Action.bind_eq_ok_iff, Action.mapError_eq_ok_iff, Action.get_eq_ok_iff,
    Action.liftExcept_eq_ok_iff, Outcome.mapError_eq_ok_iff, Action.pure_eq_ok_iff]
  constructor
  · intro hsteps
    obtain ⟨contentKey, first, hkey, iv, second, hiv, _, _, ⟨rfl, rfl⟩, body, _, ⟨hbody, rfl⟩,
      wrapped, _, hwrap, material, _, ⟨hmaterial, rfl⟩, rfl, rfl⟩ := hsteps
    exact ⟨contentKey, first, iv, _, body, wrapped, material, hkey, hiv, hbody, hwrap, hmaterial,
      rfl⟩
  · intro hsteps
    obtain ⟨contentKey, first, iv, second, body, wrapped, material, hkey, hiv, hbody, hwrap,
      hmaterial, rfl⟩ := hsteps
    exact ⟨contentKey, first, hkey, iv, second, hiv, second, second, ⟨rfl, rfl⟩, body, second,
      ⟨hbody, rfl⟩, wrapped, next, hwrap, material, next, ⟨hmaterial, rfl⟩, rfl, rfl⟩

/-- Nothing that is prepared has to do with the store. -/
theorem ne_store_of_prepare_error {error : ClientError}
    (hprepare : client.prepare key plaintext description facility = (.error error, next))
    (reason : StoreError) : error ≠ .store reason := by
  unfold prepare at hprepare
  simp only [Action.bind_eq_error_iff, Action.mapError_eq_error_iff, Action.liftExcept_eq_error_iff,
    Outcome.mapError_eq_error_iff] at hprepare
  rintro rfl
  rcases hprepare with hkey | ⟨_, _, _, hiv | ⟨_, _, _, hget | ⟨_, _, _,
    ⟨hbody, _⟩ | ⟨_, _, _, hwrap | ⟨_, _, _, ⟨hbuild, _⟩ | ⟨_, _, _, hpure⟩⟩⟩⟩⟩⟩
  · obtain ⟨_, _, hrename⟩ := hkey
    cases hrename
  · obtain ⟨_, _, hrename⟩ := hiv
    cases hrename
  · cases hget
  · obtain ⟨_, _, hrename⟩ := hbody
    cases hrename
  · obtain ⟨_, _, hrename⟩ := hwrap
    cases hrename
  · obtain ⟨_, _, hrename⟩ := hbuild
    cases hrename
  · cases hpure

/-- A body and its material, as a client makes them of a plaintext under a content key and an IV:
the plaintext is sealed to the body, and the material is valid and tells how the content key was
wrapped, which leads from one state of the facility to the other. -/
structure Makes (client : Client) (plaintext : Bytes) (description : Description)
    (contentKey iv : Bytes) (before after : Facility) (body : Bytes) (material : Material) :
    Prop where
  sealBody_eq : ∀ opened : Facility, opened.isOpen →
    sealBody opened client.scheme contentKey iv plaintext = .ok body
  wrap_eq : client.provider.wrap contentKey description before =
    (.ok ⟨material.wrapAlgorithm, material.wrappedKey, material.description⟩, after)
  valid : material.Valid
  scheme_eq : material.scheme = client.scheme
  iv_eq : material.iv = iv

theorem makes_of_build {contentKey iv body : Bytes} {wrapped : WrappedKey} {material : Material}
    (hseal : ∀ opened : Facility, opened.isOpen →
      sealBody opened client.scheme contentKey iv plaintext = .ok body)
    (hwrap : client.provider.wrap contentKey description facility = (.ok wrapped, next))
    (hbuild : Draft.build ⟨client.scheme, wrapped.algorithm, wrapped.bytes, iv, none,
      wrapped.description⟩ = .ok material) :
    client.Makes plaintext description contentKey iv facility next body material := by
  obtain ⟨hvalid, -, hdraft⟩ := Draft.build_eq_ok_iff.mp hbuild
  obtain ⟨hscheme, halgorithm, hbytes, hiv, -, hdescription⟩ := Draft.mk.inj hdraft
  refine ⟨hseal, ?_, hvalid, hscheme.symm, hiv.symm⟩
  rw [hwrap, ← halgorithm, ← hbytes, ← hdescription]

/-- Sealing, wrapping and building, which come after the draws, make a body and its material. -/
theorem makes_iff {contentKey iv body : Bytes} {material : Material} (hopen : facility.isOpen) :
    client.Makes plaintext description contentKey iv facility next body material ↔
      sealBody facility client.scheme contentKey iv plaintext = .ok body ∧
      ∃ wrapped, client.provider.wrap contentKey description facility = (.ok wrapped, next) ∧
        Draft.build ⟨client.scheme, wrapped.algorithm, wrapped.bytes, iv, none,
          wrapped.description⟩ = .ok material := by
  constructor
  · intro hmakes
    refine ⟨hmakes.sealBody_eq facility hopen, _, hmakes.wrap_eq,
      Draft.build_eq_ok_iff.mpr ⟨hmakes.valid, fun _ ↦ rfl, ?_⟩⟩
    rw [hmakes.scheme_eq, hmakes.iv_eq]
  · rintro ⟨hseal, wrapped, hwrap, hbuild⟩
    exact makes_of_build (fun opened hopened ↦ sealBody_eq_ok_of_isOpen hopened hseal) hwrap hbuild

/-- Preparing takes two draws of an open facility, and makes a body and its material under them. -/
theorem prepare_eq_ok_iff_makes :
    client.prepare key plaintext description facility = (.ok requests, next) ↔
      facility.isOpen ∧ ∃ body material,
        client.Makes plaintext description (facility.source.bytes facility.drawn Aes.keyLength)
          (facility.source.bytes (facility.drawn + 1) client.scheme.ivLength)
          (facility.afterDraws 2) next body material ∧
        requests = client.requests key body material := by
  rw [prepare_eq_ok_iff]
  constructor
  · rintro ⟨contentKey, first, iv, second, body, wrapped, material, hkey, hiv, hbody, hwrap, hbuild,
      rfl⟩
    obtain ⟨hopen, rfl, rfl⟩ := Facility.draw_eq_ok_iff.mp hkey
    obtain ⟨-, rfl, rfl⟩ := Facility.draw_eq_ok_iff.mp hiv
    have hstill : (facility.afterDraws 2).isOpen := hopen
    exact ⟨hopen, body, material, (makes_iff hstill).mpr ⟨hbody, wrapped, hwrap, hbuild⟩, rfl⟩
  · rintro ⟨hopen, body, material, hmakes, rfl⟩
    have hstill : (facility.afterDraws 2).isOpen := hopen
    obtain ⟨hbody, wrapped, hwrap, hbuild⟩ := (makes_iff hstill).mp hmakes
    exact ⟨_, _, _, _, body, wrapped, material, Facility.draw_eq_ok_iff.mpr ⟨hopen, rfl, rfl⟩,
      Facility.draw_eq_ok_iff.mpr ⟨hopen, rfl, rfl⟩, hbody, hwrap, hbuild, rfl⟩

/-- A put that is not prepared writes nothing. -/
theorem put_of_prepare_error {error : ClientError}
    (hprepare : client.prepare key plaintext description facility = (.error error, next)) :
    client.put store key plaintext description facility state = (.error error, next, state) := by
  rw [put, hprepare]

/-- A put that is prepared answers and writes what the store makes of its requests. -/
theorem put_of_prepare_ok
    (hprepare : client.prepare key plaintext description facility = (.ok requests, next)) :
    client.put store key plaintext description facility state =
      ((store.putAll state requests).1.mapError .store, next,
        (store.putAll state requests).2) := by
  rw [put, hprepare]

/-- A put succeeds if it is prepared and all its requests are answered. -/
theorem put_eq_ok_iff :
    client.put store key plaintext description facility state = (.ok (), next, written) ↔
      ∃ requests, client.prepare key plaintext description facility = (.ok requests, next) ∧
        store.putAll state requests = (.ok (), written) := by
  cases hprepare : client.prepare key plaintext description facility with
  | mk result reached =>
      cases result with
      | error error =>
          rw [put_of_prepare_error hprepare]
          constructor
          · intro hput
            cases hput
          · intro hsteps
            obtain ⟨_, hprepared, _⟩ := hsteps
            cases hprepared
      | ok prepared =>
          rw [put_of_prepare_ok hprepare]
          constructor
          · intro hput
            obtain ⟨hresult, hrest⟩ := Prod.mk.inj hput
            obtain ⟨rfl, rfl⟩ := Prod.mk.inj hrest
            exact ⟨prepared, rfl, Prod.ext (Outcome.mapError_eq_ok_iff.mp hresult) rfl⟩
          · intro hsteps
            obtain ⟨_, hprepared, hwrites⟩ := hsteps
            cases hprepared
            rw [hwrites]
            rfl

/-! ### The requests of a put -/

variable {body : Bytes} {material : Material}

/-- The request for the object itself, with or without the envelope in its metadata. -/
def objectRequest (client : Client) (key : String) (body : Bytes) (material : Material) :
    PutRequest :=
  match client.placement with
  | .objectMetadata => (PutRequest.mk key .empty body).withEnvelope material
  | .instructionFile => ⟨key, .empty, body⟩

/-- The request for the instruction object, if the client makes one. -/
def instructionRequest? (client : Client) (key : String) (material : Material) :
    Option PutRequest :=
  match client.placement with
  | .objectMetadata => none
  | .instructionFile => some (.instructionFor key material)

/-- With instruction objects, a bare body is written, and then the instruction object. -/
theorem requests_of_instructionFile (hplacement : client.placement = .instructionFile)
    (key : String) (body : Bytes) (material : Material) :
    client.requests key body material =
      [⟨key, .empty, body⟩, PutRequest.instructionFor key material] := by
  rw [requests, hplacement]
  rfl

/-- The object is written first, and then the instruction object. -/
theorem requests_eq (client : Client) (key : String) (body : Bytes) (material : Material) :
    client.requests key body material =
      client.objectRequest key body material ::
        (client.instructionRequest? key material).toList := by
  unfold requests objectRequest instructionRequest?
  cases client.placement <;> rfl

theorem length_requests_le (client : Client) (key : String) (body : Bytes) (material : Material) :
    (client.requests key body material).length ≤ 2 := by
  unfold requests
  cases client.placement with
  | objectMetadata => exact Nat.le_succ 1
  | instructionFile => exact Nat.le_refl 2

@[simp] theorem key_objectRequest (client : Client) (key : String) (body : Bytes)
    (material : Material) : (client.objectRequest key body material).key = key := by
  unfold objectRequest
  cases client.placement <;> rfl

@[simp] theorem body_objectRequest (client : Client) (key : String) (body : Bytes)
    (material : Material) : (client.objectRequest key body material).object.body = body := by
  unfold objectRequest
  cases client.placement <;> rfl

theorem key_of_instructionRequest? {request : PutRequest}
    (hrequest : client.instructionRequest? key material = some request) :
    request.key = key ++ Placement.defaultSuffix := by
  unfold instructionRequest? at hrequest
  cases hplacement : client.placement with
  | objectMetadata => simp [hplacement] at hrequest
  | instructionFile =>
      rw [hplacement] at hrequest
      cases hrequest
      rfl

theorem placement_of_instructionRequest? {request : PutRequest}
    (hrequest : client.instructionRequest? key material = some request) :
    client.placement = .instructionFile := by
  unfold instructionRequest? at hrequest
  cases hplacement : client.placement with
  | objectMetadata => simp [hplacement] at hrequest
  | instructionFile => rfl

/-- The last request for the object is the request for the object. -/
theorem lastUnder?_requests (client : Client) (key : String) (body : Bytes)
    (material : Material) :
    lastUnder? PutRequest.key key (client.requests key body material) =
      some (client.objectRequest key body material) := by
  rw [requests_eq, lastUnder?_cons, if_pos (key_objectRequest client key body material)]
  cases hrequest : client.instructionRequest? key material with
  | none => rfl
  | some request =>
      have hne : request.key ≠ key :=
        key_of_instructionRequest? hrequest ▸ Placement.append_suffix_ne key
      rw [Option.toList_some, lastUnder?_cons, if_neg hne]
      rfl

/-- The last request for the instruction object is the request for it, if there is one. -/
theorem lastUnder?_suffix_requests (client : Client) (key : String) (body : Bytes)
    (material : Material) :
    lastUnder? PutRequest.key (key ++ Placement.defaultSuffix) (client.requests key body material) =
      client.instructionRequest? key material := by
  have hne : (client.objectRequest key body material).key ≠ key ++ Placement.defaultSuffix := by
    rw [key_objectRequest]
    exact Ne.symm (Placement.append_suffix_ne key)
  rw [requests_eq, lastUnder?_cons, if_neg hne]
  cases hrequest : client.instructionRequest? key material with
  | none => rfl
  | some request =>
      rw [Option.toList_some, lastUnder?_cons, if_pos (key_of_instructionRequest? hrequest)]
      rfl

/-- There are no requests for other keys. -/
theorem lastUnder?_requests_eq_none {other : String} (hkey : other ≠ key)
    (hsuffix : other ≠ key ++ Placement.defaultSuffix) :
    lastUnder? PutRequest.key other (client.requests key body material) = none := by
  cases hlast : lastUnder? PutRequest.key other (client.requests key body material) with
  | none => rfl
  | some request =>
      obtain ⟨hmem, rfl⟩ := mem_of_lastUnder? hlast
      rw [requests_eq] at hmem
      cases List.mem_cons.mp hmem with
      | inl hobject =>
          rw [hobject, key_objectRequest] at hkey
          exact absurd rfl hkey
      | inr hinstruction =>
          exact absurd (key_of_instructionRequest? (Option.mem_toList.mp hinstruction)) hsuffix

/-- What is at a key and at its instruction key after a put makes up an object and its material. -/
theorem findMaterial_objectRequest (hvalid : material.Valid)
    (hinstruction : ∀ request, client.instructionRequest? key material = some request →
      store.get state (key ++ Placement.defaultSuffix) = .ok request.object) :
    findMaterial store state key (client.objectRequest key body material).object =
      .ok material := by
  rw [findMaterial_eq_ok_iff]
  unfold objectRequest instructionRequest? at *
  cases hplacement : client.placement with
  | objectMetadata =>
      rw [if_pos (PutRequest.hasEnvelope_withEnvelope _ material)]
      exact PutRequest.metadataMaterial_withEnvelope _ hvalid
  | instructionFile =>
      rw [hplacement] at hinstruction
      exact ⟨_, hinstruction _ rfl, PutRequest.instructionMaterial_instruction _ _ hvalid⟩

end Client

end SealedStore

import SealedStore.Proofs.Client.Writing
import SealedStore.Proofs.Keys.Local

/-!
# Clients over one master key

What a client with a local provider prepares can be read by every client with a local provider over
the same master key (`sealed_of_prepare`), and preparing fails for no plaintext within the limits of
its scheme (`exists_prepare_eq_ok`). So a store is said to hold a plaintext under a key without a
word on which client put it there, or how: `Holds`.
-/

namespace SealedStore

/-- How one of the clients over a common master key writes. -/
structure Party where
  algorithm : LocalAlgorithm
  scheme : Scheme
  placement : Placement
  deriving DecidableEq

/-- The client of a party. -/
def Party.client (party : Party) (masterKey : Bytes) : Client :=
  ⟨(LocalKeys.mk masterKey party.algorithm).provider, party.scheme, party.placement⟩

/-- A body with its material, for a plaintext under a content key: local providers over the master
key unwrap the content key, and under it the plaintext is sealed to the body. -/
structure Sealed (masterKey contentKey plaintext : Bytes) (material : Material) (body : Bytes) :
    Prop where
  valid : material.Valid
  unwrap_eq : ∀ (keys : LocalKeys) (opened : Facility), keys.masterKey = masterKey →
    opened.isOpen →
    keys.unwrap opened material.wrappedKey material.wrapAlgorithm = .ok contentKey
  sealBody_eq : ∀ opened : Facility, opened.isOpen →
    Client.sealBody opened material.scheme contentKey material.iv plaintext = .ok body

namespace Sealed

variable {masterKey contentKey plaintext body : Bytes} {material : Material} {opened : Facility}

/-- With the material any body is opened under the content key. -/
theorem openWith_eq (hsealed : Sealed masterKey contentKey plaintext material body)
    (party : Party) (hopen : opened.isOpen) (other : Bytes) :
    (party.client masterKey).openWith opened material other =
      Client.openBody opened material contentKey other :=
  Client.openWith_of_unwrap (hsealed.unwrap_eq ⟨masterKey, party.algorithm⟩ opened rfl hopen)

/-- From the body itself every party reads the plaintext. -/
theorem openWith_self (hsealed : Sealed masterKey contentKey plaintext material body)
    (party : Party) (hopen : opened.isOpen) :
    (party.client masterKey).openWith opened material body = .ok plaintext := by
  rw [hsealed.openWith_eq party hopen, Client.openBody_eq_ok_iff hsealed.valid]
  exact hsealed.sealBody_eq opened hopen

end Sealed

namespace Party

variable {σ : Type} {party : Party} {masterKey plaintext : Bytes} {facility next : Facility}
  {key : String} {description : Description} {requests : List PutRequest}

/-- Wrapping by a party: its own algorithm is recorded, and the description as it is given. -/
theorem wrap_client_eq_ok_iff {contentKey : Bytes} {wrapped : WrappedKey} :
    (party.client masterKey).provider.wrap contentKey description facility =
        (.ok wrapped, next) ↔
      ∃ bytes, (LocalKeys.mk masterKey party.algorithm).wrapBytes contentKey facility =
          (.ok bytes, next) ∧
        wrapped = ⟨party.algorithm.recorded, bytes, description⟩ :=
  LocalKeys.wrap_eq_ok_iff

/-- What a party prepares is a body with its material, under the first draw as the content key. -/
theorem sealed_of_prepare_draw
    (hprepare : (party.client masterKey).prepare key plaintext description facility =
      (.ok requests, next)) :
    ∃ material body,
      Sealed masterKey (facility.source.bytes facility.drawn Aes.keyLength) plaintext material
        body ∧
      material.scheme = party.scheme ∧
      requests = (party.client masterKey).requests key body material := by
  obtain ⟨hopen, body, material, hmakes, rfl⟩ := Client.prepare_eq_ok_iff_makes.mp hprepare
  obtain ⟨bytes, hbytes, hwrapped⟩ := wrap_client_eq_ok_iff.mp hmakes.wrap_eq
  obtain ⟨halgorithm, hkey, -⟩ := WrappedKey.mk.inj hwrapped
  -- Galois counter mode does not unwrap an empty key, so it has to be known that this is none.
  have hne : facility.source.bytes facility.drawn Aes.keyLength ≠ [] := by
    refine List.ne_nil_of_length_pos ?_
    rw [facility.source.length_bytes]
    decide
  refine ⟨material, body, ⟨hmakes.valid, ?_, ?_⟩, hmakes.scheme_eq, rfl⟩
  · intro keys opened hmaster hopened
    rw [hkey, halgorithm]
    exact LocalKeys.unwrap_wrapBytes hopened hmaster hne hbytes
  · intro opened hopened
    rw [hmakes.scheme_eq, hmakes.iv_eq]
    exact hmakes.sealBody_eq opened hopened

/-- What a party prepares is a body with its material, under a content key of its own. -/
theorem sealed_of_prepare
    (hprepare : (party.client masterKey).prepare key plaintext description facility =
      (.ok requests, next)) :
    ∃ contentKey material body, Sealed masterKey contentKey plaintext material body ∧
      material.scheme = party.scheme ∧
      requests = (party.client masterKey).requests key body material :=
  ⟨_, sealed_of_prepare_draw hprepare⟩

/-- Over a master key of the right length and with an open facility, a party prepares every
plaintext that fits its scheme. The facility stays open. -/
theorem exists_prepare_eq_ok (hmaster : masterKey.length = Aes.keyLength)
    (hopen : facility.isOpen) (hfits : party.scheme.Fits plaintext) (key : String)
    (description : Description) :
    ∃ requests next, (party.client masterKey).prepare key plaintext description facility =
      (.ok requests, next) ∧ next.isOpen := by
  have hkey := facility.source.length_bytes facility.drawn Aes.keyLength
  have hiv := facility.source.length_bytes (facility.drawn + 1) party.scheme.ivLength
  have hstill : (facility.afterDraws 2).isOpen := hopen
  obtain ⟨body, hbody⟩ := Client.exists_sealBody_eq_ok hstill hkey hiv hfits
  have hmasterKey : (LocalKeys.mk masterKey party.algorithm).masterKey.length = Aes.keyLength :=
    hmaster
  have hwraps : party.algorithm.Wraps
      (facility.source.bytes facility.drawn Aes.keyLength).length := by
    rw [hkey]
    exact party.algorithm.wraps_keyLength
  obtain ⟨bytes, next, hbytes, hnext⟩ :=
    LocalKeys.exists_wrapBytes_eq_ok hmasterKey hstill hwraps
  refine ⟨_, next, Client.prepare_eq_ok_iff_makes.mpr ⟨hopen, body,
    ⟨bytes, _, party.scheme, party.algorithm.recorded, party.scheme.tagBits?, description⟩,
    ⟨fun opened hopened ↦ Client.sealBody_eq_ok_of_isOpen hopened hbody,
      wrap_client_eq_ok_iff.mpr ⟨bytes, hbytes, rfl⟩,
      ⟨LocalKeys.wrapBytes_ne_nil hbytes, hiv, rfl⟩, rfl, rfl⟩, rfl⟩, hnext⟩

end Party

/-- A call to put an object. -/
structure PutCall where
  party : Party
  key : String
  plaintext : Bytes
  description : Description

/-- What a call may have prepared: the requests for a body and its material, sealed from the
plaintext under some content key. -/
def PutCall.Prepares (masterKey : Bytes) (call : PutCall) (requests : List PutRequest) : Prop :=
  ∃ contentKey material body, Sealed masterKey contentKey call.plaintext material body ∧
    material.scheme = call.party.scheme ∧
    requests = (call.party.client masterKey).requests call.key body material

/-! ## What a put leaves in a store -/

/-- A store holds a plaintext under a key: an object is there with an envelope, and its body is the
one that goes with the material of that envelope. -/
def Holds {σ : Type} (masterKey : Bytes) (store : ObjectStore σ) (state : σ) (key : String)
    (plaintext : Bytes) : Prop :=
  ∃ object material contentKey, store.get state key = .ok object ∧
    Client.findMaterial store state key object = .ok material ∧
    Sealed masterKey contentKey plaintext material object.body

section Holds

variable {σ : Type} {masterKey plaintext : Bytes} {store : ObjectStore σ} {state other : σ}
  {key : String} {opened : Facility}

/-- What a store holds every party reads. -/
theorem Holds.get_eq (hholds : Holds masterKey store state key plaintext) (reader : Party)
    (hopen : opened.isOpen) :
    (reader.client masterKey).get store opened state key = .ok plaintext := by
  obtain ⟨object, material, contentKey, hobject, hmaterial, hsealed⟩ := hholds
  rw [Client.get_of_material hobject hmaterial]
  exact hsealed.openWith_self reader hopen

/-- What a store holds rests on two objects. -/
theorem Holds.congr (hholds : Holds masterKey store state key plaintext)
    (hobject : store.get other key = store.get state key)
    (hinstruction : store.get other (key ++ Placement.defaultSuffix) =
      store.get state (key ++ Placement.defaultSuffix)) :
    Holds masterKey store other key plaintext := by
  obtain ⟨object, material, contentKey, hfound, hmaterial, hsealed⟩ := hholds
  refine ⟨object, material, contentKey, hobject.trans hfound, ?_, hsealed⟩
  rw [Client.findMaterial_eq_ok_iff] at hmaterial ⊢
  rwa [hinstruction]

variable {client : Client} {body : Bytes} {material : Material} {requests : List PutRequest}

/-- Once the requests for a sealed body are answered, the store holds its plaintext. -/
theorem holds_of_putAll {contentKey : Bytes} (hreplacing : store.Replacing)
    (hsealed : Sealed masterKey contentKey plaintext material body)
    (hput : store.putAll state (client.requests key body material) = (.ok (), other)) :
    Holds masterKey store other key plaintext := by
  have hget := ObjectStore.get_of_putAll hreplacing hput
  refine ⟨(client.objectRequest key body material).object, material, contentKey, ?_, ?_, ?_⟩
  · rw [hget, Client.lastUnder?_requests]
  · refine Client.findMaterial_objectRequest hsealed.valid fun request hrequest ↦ ?_
    rw [hget, Client.lastUnder?_suffix_requests, hrequest]
  · rw [Client.body_objectRequest]
    exact hsealed

/-- The store goes on to hold what it holds under keys that share no object with the key of the
requests. -/
theorem Holds.of_putAll {written : String} (hholds : Holds masterKey store state key plaintext)
    (hreplacing : store.Replacing)
    (hput : store.putAll state (client.requests written body material) = (.ok (), other))
    (hkey : key ≠ written) (hobject : key ≠ written ++ Placement.defaultSuffix)
    (hinstruction : key ++ Placement.defaultSuffix ≠ written) :
    Holds masterKey store other key plaintext := by
  have hget := ObjectStore.get_of_putAll hreplacing hput
  refine hholds.congr ?_ ?_
  · rw [hget, Client.lastUnder?_requests_eq_none hkey hobject]
  · rw [hget, Client.lastUnder?_requests_eq_none hinstruction]
    exact fun heq ↦ hkey (Placement.append_suffix_inj.mp heq)

end Holds

end SealedStore

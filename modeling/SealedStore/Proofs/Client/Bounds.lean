import SealedStore.Facility.Seeded
import SealedStore.Proofs.Cipher.Opening
import SealedStore.Proofs.Client.Reading
import SealedStore.Proofs.Envelope.Placement
import SealedStore.Proofs.Keys.Local
import SealedStore.Proofs.Store

/-!
# Hostile objects

Whoever can write into the store chooses the metadata, the bodies and the instruction objects. What
a client under a local provider takes out of them by place or by width is there all the same, behind
the check that guards it (`InBounds`), so that a read ends with a plaintext or with a failure of the
store, of the envelope, of the key or of the data, and never outside a byte string:
`get_in_bounds`.
-/

namespace SealedStore

/-! ## Wrapped keys -/

/-- The failures that unwrapping a key can end with. -/
def KeyError.endsUnwrap : KeyError → Bool
  | .unsupportedAlgorithm _ | .malformed _ => true
  | .cipher error => error.endsOpening
  | .service _ => false

namespace LocalKeys

variable {keys : LocalKeys} {facility : Facility} {wrapped : Bytes} {error : KeyError}

theorem endsUnwrap_of_unwrapGcm (hunwrap : keys.unwrapGcm wrapped facility = .error error) :
    error.endsUnwrap := by
  unfold unwrapGcm at hunwrap
  split at hunwrap
  next => cases hunwrap; rfl
  next hlong =>
    obtain ⟨iv, ciphertext, tag, rfl, hiv, -, htag⟩ := exists_split (Nat.lt_of_not_le hlong)
    rw [split_append hiv htag] at hunwrap
    obtain ⟨cause, hcause, rfl⟩ := Outcome.mapError_eq_error_iff.mp hunwrap
    have hcontent := @Facility.endsOpening_of_contentSession facility keys.masterKey iv tag
      ciphertext cause .gcm
    exact hcontent hiv (fun _ ↦ htag) hcause

theorem endsUnwrap_of_unwrap {algorithm : WrapAlgorithm}
    (hunwrap : keys.unwrap facility wrapped algorithm = .error error) : error.endsUnwrap := by
  unfold unwrap at hunwrap
  split at hunwrap
  next => cases hunwrap; rfl
  next =>
    obtain ⟨cause, hcause, rfl⟩ := Outcome.mapError_eq_error_iff.mp hunwrap
    exact Facility.endsOpening_of_wrapSession hcause
  next => exact endsUnwrap_of_unwrapGcm hunwrap

end LocalKeys

/-! ## Bodies -/

/-- The failures that a read under a local provider can end with. -/
def ClientError.endsRead : ClientError → Bool
  | .store _ | .envelope _ | .notEncrypted _ | .truncated _ _ => true
  | .keys error => error.endsUnwrap
  | .cipher error => error.endsOpening

namespace Client

variable {σ : Type} {store : ObjectStore σ} {state : σ} {key : String} {object : StoredObject}
  {facility : Facility} {material : Material} {contentKey body : Bytes} {error : ClientError}

theorem error_of_splitBody (hsplit : splitBody material body = .error error) :
    ∃ length tagLength, error = .truncated length tagLength := by
  unfold splitBody at hsplit
  split at hsplit
  next =>
    dsimp only at hsplit
    split at hsplit
    next => cases hsplit; exact ⟨_, _, rfl⟩
    next hlong =>
      rw [Bytes.splitEnd?, if_pos (Nat.le_of_not_lt hlong)] at hsplit
      cases hsplit
  next => cases hsplit

theorem endsRead_of_openBody (hvalid : material.Valid)
    (hopened : openBody facility material contentKey body = .error error) : error.endsRead := by
  rcases Outcome.bind_eq_error_iff.mp hopened with hsplit | ⟨⟨ciphertext, tag⟩, hsplit, hopened⟩
  · obtain ⟨length, tagLength, rfl⟩ := error_of_splitBody hsplit
    rfl
  · obtain ⟨-, htag⟩ := (splitBody_eq_ok_iff hvalid).mp hsplit
    obtain ⟨cause, hcause, rfl⟩ := Outcome.mapError_eq_error_iff.mp hopened
    refine Facility.endsOpening_of_contentSession hvalid.length_iv (fun hauthenticated ↦ ?_) hcause
    rw [htag, Scheme.tagLength, if_pos hauthenticated]

theorem endsRead_of_findMaterial
    (hmaterial : findMaterial store state key object = .error error) : error.endsRead := by
  unfold findMaterial at hmaterial
  split at hmaterial
  next =>
    obtain ⟨cause, -, rfl⟩ := Outcome.mapError_eq_error_iff.mp hmaterial
    rfl
  next =>
    split at hmaterial
    next =>
      obtain ⟨cause, -, rfl⟩ := Outcome.mapError_eq_error_iff.mp hmaterial
      rfl
    next => cases hmaterial; rfl
    next => cases hmaterial; rfl

/-- Whatever is in the store, a read under a local provider fails in one of these ways or not at
all. -/
theorem endsRead_of_get {keys : LocalKeys} {scheme : Scheme} {placement : Placement}
    (hget : Client.get ⟨keys.provider, scheme, placement⟩ store facility state key =
      .error error) : error.endsRead := by
  unfold get at hget
  rcases Outcome.bind_eq_error_iff.mp hget with hobject | ⟨object, -, hget⟩
  · obtain ⟨cause, -, rfl⟩ := Outcome.mapError_eq_error_iff.mp hobject
    rfl
  rcases Outcome.bind_eq_error_iff.mp hget with hmaterial | ⟨material, hmaterial, hget⟩
  · exact endsRead_of_findMaterial hmaterial
  rcases Outcome.bind_eq_error_iff.mp hget with hkey | ⟨contentKey, -, hopened⟩
  · obtain ⟨cause, hcause, rfl⟩ := Outcome.mapError_eq_error_iff.mp hkey
    exact LocalKeys.endsUnwrap_of_unwrap hcause
  · exact endsRead_of_openBody (valid_of_findMaterial hmaterial) hopened

/-- Each part that reading a body under some material takes by place or by width, behind the check
that guards it, is there. -/
structure InBounds (material : Material) (body : Bytes) : Prop where
  /-- A wrapped key that is not too short has an IV and a tag of the widths of the cipher, and
  something between them. -/
  wrappedParts : ¬ material.wrappedKey.length ≤ LocalKeys.ivLength + Gcm.tagLength →
    ∃ iv ciphertext tag, LocalKeys.split material.wrappedKey = .ok (iv, ciphertext, tag) ∧
      (∃ nonce, iv.toBits? 96 = some nonce) ∧ ∃ expected, tag.toBits? 128 = some expected
  /-- A wrapped key of whole semiblocks has a first one and others after it. -/
  semiblocks : KeyWrap.IsWrappedLength material.wrappedKey.length →
    ∃ check rest, material.wrappedKey.semiblocks = check :: rest ∧ 2 ≤ rest.length
  /-- The IV has the width of the scheme. -/
  iv : ∃ typedIv, material.iv.toBits? material.scheme.mode.ivBits = some typedIv
  /-- A body that is not too short is cut before a tag of the width of the cipher. -/
  tag : material.scheme.authenticated →
    ¬ body.length < material.tagBits?.getD tagBits / 8 →
      ∃ ciphertext tag, body.splitEnd? (material.tagBits?.getD tagBits / 8) =
        some (ciphertext, tag) ∧ ∃ expected, tag.toBits? 128 = some expected
  /-- What is decrypted from a last block has a last byte, and as many bytes before its end as that
  tells, if it tells the length of a padding. -/
  padding : ∀ (cipher : BlockCipher) (chain : Block) (pending : Bytes),
    ¬ pending.length ≠ blockLength →
      ∃ count, (Bytes.ofWords (Cbc.decryptBlocks cipher chain pending.blocks))[blockLength - 1]? =
          some count ∧
        (1 ≤ count.toNat ∧ count.toNat ≤ blockLength →
          ∃ padding, (Bytes.ofWords (Cbc.decryptBlocks cipher chain pending.blocks)).slice?
            (blockLength - count.toNat) count.toNat = some padding)

theorem inBounds_of_valid (hvalid : material.Valid) (body : Bytes) : InBounds material body where
  wrappedParts hlong := by
    obtain ⟨iv, ciphertext, tag, hparts, hiv, -, htag⟩ :=
      LocalKeys.exists_split (Nat.lt_of_not_le hlong)
    exact ⟨iv, ciphertext, tag, by rw [hparts, LocalKeys.split_append hiv htag],
      Bytes.exists_toBits?_eq_some_iff.mpr (by rw [hiv]; rfl),
      Bytes.exists_toBits?_eq_some_iff.mpr (by rw [htag]; rfl)⟩
  semiblocks := KeyWrap.exists_semiblocks
  iv := Bytes.exists_toBits?_eq_some_iff.mpr (Scheme.width_iv_iff.mpr hvalid.length_iv)
  tag hauthenticated hlong := by
    rw [tagLength_of_valid hvalid hauthenticated] at hlong ⊢
    refine ⟨_, _, by rw [Bytes.splitEnd?, if_pos (Nat.le_of_not_lt hlong)], ?_⟩
    rw [Bytes.exists_toBits?_eq_some_iff, List.length_drop,
      Nat.sub_sub_self (Nat.le_of_not_lt hlong)]
    rfl
  padding cipher chain pending hlast :=
    Cbc.unpad_in_bounds
      (Cbc.length_decryptBlocks_block cipher chain (Decidable.not_not.mp hlast))

/-- Whatever stands in the store, and whatever the store does, every read by a client under a local
provider ends with a plaintext or with a failure of the store, of the envelope, of the key or of the
data. It never ends outside a byte string, nor for an IV or a tag of a wrong width that comes out of
the store: each part that it takes by place or by width is there. -/
theorem get_in_bounds (keys : LocalKeys) (scheme : Scheme) (placement : Placement)
    (store : ObjectStore σ) (facility : Facility) (state : σ) (key : String) :
    ((∃ plaintext, Client.get ⟨keys.provider, scheme, placement⟩ store facility state key =
        .ok plaintext) ∨
      ∃ error, Client.get ⟨keys.provider, scheme, placement⟩ store facility state key =
          .error error ∧ error.endsRead ∧
        error ≠ .cipher .outOfBounds ∧ error ≠ .keys (.cipher .outOfBounds)) ∧
      ∀ object material, store.get state key = .ok object →
        findMaterial store state key object = .ok material →
          InBounds material object.body := by
  refine ⟨?_, fun object material _ hmaterial ↦
    inBounds_of_valid (valid_of_findMaterial hmaterial) object.body⟩
  cases hget : Client.get ⟨keys.provider, scheme, placement⟩ store facility state key with
  | ok plaintext => exact .inl ⟨plaintext, rfl⟩
  | error error =>
      have hends := endsRead_of_get hget
      refine .inr ⟨error, rfl, hends, ?_, ?_⟩
      · rintro rfl
        cases hends
      · rintro rfl
        cases hends

/-- Material whose wrapped key is as short as one can be that is cut into parts. -/
def shortMaterial : Material :=
  ⟨Bytes.zeros 29, Bytes.zeros 12, .gcm, .aesGcm, some tagBits, .empty⟩

/-- An object under that material, whose body is too short for a tag. -/
def shortObject : StoredObject :=
  ((PutRequest.mk "report" .empty (Bytes.zeros 15)).withEnvelope shortMaterial).object

theorem get_in_bounds_short :
    MemoryStore.store.get (TextMap.empty.insert "report" shortObject) "report" = .ok shortObject ∧
      findMaterial MemoryStore.store (TextMap.empty.insert "report" shortObject) "report"
        shortObject = .ok shortMaterial ∧
      InBounds shortMaterial shortObject.body := by
  have hvalid : shortMaterial.Valid := ⟨by decide, by decide, by decide⟩
  have hobject := MemoryStore.get_insert_self .empty "report" shortObject
  have hmaterial : findMaterial MemoryStore.store (TextMap.empty.insert "report" shortObject)
      "report" shortObject = .ok shortMaterial := by
    have henvelope : shortObject.hasEnvelope := PutRequest.hasEnvelope_withEnvelope _ shortMaterial
    rw [findMaterial_eq_ok_iff, if_pos henvelope]
    exact PutRequest.metadataMaterial_withEnvelope _ hvalid
  exact ⟨hobject, hmaterial,
    (get_in_bounds ⟨Bytes.zeros 32, .aesGcm⟩ .gcm .objectMetadata MemoryStore.store
      (.closed (.ofSeed 0)) _ "report").2 shortObject shortMaterial hobject hmaterial⟩

end Client

end SealedStore

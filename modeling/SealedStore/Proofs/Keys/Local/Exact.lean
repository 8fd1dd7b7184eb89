import SealedStore.Proofs.Keys.Local

/-!
# What local providers open

Local providers over one master key open each other's wrapped keys and nothing else: `wrap_exact`.
Which algorithm a provider wraps by does not matter to what it opens, and neither does any
description. In Galois counter mode an empty content key is wrapped, but what it is wrapped to is
refused, for there is nothing between its IV and its tag.
-/

namespace SealedStore.LocalKeys

variable {keys other : LocalKeys} {facility opened next : Facility} {contentKey wrapped : Bytes}

/-! ## Opening in Galois counter mode -/

/-- What is long enough to be opened is a sealed content key, or its tag is not the one of its
ciphertext. -/
theorem isSealed_or_unwrapGcm_eq_error (hopen : facility.isOpen)
    (hmaster : keys.masterKey.length = Aes.keyLength)
    (hlong : ivLength + Gcm.tagLength < wrapped.length) :
    (∃ contentKey, contentKey ≠ [] ∧ contentKey.length ≤ Gcm.maxMessage ∧
        IsSealed keys.masterKey contentKey wrapped) ∨
      keys.unwrapGcm wrapped facility = .error (.cipher .authenticationFailure) := by
  obtain ⟨iv, ciphertext, tag, rfl, hiv, hne, htag⟩ := exists_split hlong
  obtain ⟨typedKey, hkey⟩ := Bytes.exists_toBits?_eq_some_iff.mpr
    (show 8 * keys.masterKey.length = 256 by rw [hmaster]; rfl)
  obtain ⟨typedIv, htypedIv⟩ := Bytes.exists_toBits?_eq_some_iff.mpr
    (show 8 * iv.length = 96 by rw [hiv]; rfl)
  obtain ⟨expected, hexpected⟩ := Bytes.exists_toBits?_eq_some_iff.mpr
    (show 8 * tag.length = 128 by rw [htag]; rfl)
  rw [unwrapGcm_append hopen hkey htypedIv hexpected hne]
  split
  next hgenuine =>
    -- The content key is what the ciphertext deciphers to.
    refine .inl ⟨Gcm.ciphertext (Aes.cipher typedKey) typedIv ciphertext, ?_, ?_, iv, typedKey,
      typedIv, hkey, htypedIv, ?_⟩
    · exact Gcm.ciphertext_ne_nil _ _ hne
    · rw [Gcm.length_ciphertext]
      exact hgenuine.1
    · rw [Gcm.messageTag, Gcm.ciphertext_ciphertext, hgenuine.2,
        Bytes.ofBits_of_toBits? hexpected]
  next => exact .inr rfl

/-- What is too short has no ciphertext. -/
theorem unwrapGcm_of_short (hshort : wrapped.length ≤ 28) :
    keys.unwrapGcm wrapped facility = .error (.malformed (.tooShort 28 wrapped.length)) := by
  rw [unwrapGcm]
  exact if_pos hshort

/-- In Galois counter mode exactly the sealed content keys are opened, those apart that are empty or
too long. -/
theorem unwrapGcm_eq_ok_iff (hopen : facility.isOpen)
    (hmaster : keys.masterKey.length = Aes.keyLength) :
    keys.unwrapGcm wrapped facility = .ok contentKey ↔
      contentKey ≠ [] ∧ contentKey.length ≤ Gcm.maxMessage ∧
        IsSealed keys.masterKey contentKey wrapped := by
  constructor
  · intro hunwrap
    have hlong : ivLength + Gcm.tagLength < wrapped.length := by
      rw [unwrapGcm] at hunwrap
      split at hunwrap
      next => cases hunwrap
      next hlong => exact Nat.lt_of_not_le hlong
    rcases isSealed_or_unwrapGcm_eq_error hopen hmaster hlong with
      ⟨other, hne, hlength, hsealed⟩ | hfailed
    · have hother := unwrapGcm_of_isSealed hopen hne hlength hsealed
      cases hother.symm.trans hunwrap
      exact ⟨hne, hlength, hsealed⟩
    · cases hfailed.symm.trans hunwrap
  · intro hgenuine
    obtain ⟨hne, hlength, hsealed⟩ := hgenuine
    exact unwrapGcm_of_isSealed hopen hne hlength hsealed

/-! ## Wrapping and opening -/

/-- Whatever a provider wraps every provider over the master key opens, unless there is nothing in
it. -/
theorem unwrap_of_wrapBytes (hopen : opened.isOpen) (hmaster : other.masterKey = keys.masterKey)
    (hwrap : keys.wrapBytes contentKey facility = (.ok wrapped, next)) :
    other.unwrap opened wrapped keys.algorithm.recorded =
      if contentKey = [] then .error (.malformed (.tooShort 28 28)) else .ok contentKey := by
  split
  next hempty =>
    obtain ⟨hwraps, hlength⟩ := length_of_wrapBytes hwrap
    cases halgorithm : keys.algorithm with
    | aesWrap =>
        -- Key wrapping takes two semiblocks at least.
        rw [halgorithm, hempty] at hwraps
        exact absurd hwraps.2 (by decide)
    | aesGcm =>
        rw [halgorithm, hempty] at hlength
        have hshort : wrapped.length = 28 := hlength
        show other.unwrapGcm wrapped opened = _
        rw [unwrapGcm_of_short (Nat.le_of_eq hshort), hshort]
  next hne => exact unwrap_wrapBytes hopen hmaster hne hwrap

/-- Under a master key of the right length and with an open facility, local providers open each
other's keys, and only genuine ones. A content key is wrapped by key wrapping if and only if it is
made of whole semiblocks, two at least, and always in Galois counter mode; the algorithm and the
description are recorded, and the length grows by 8 or by 28 bytes. Any provider over the master key
opens it again under any description, except that the empty key is refused. In Galois counter mode
exactly what seals a content key under the master key is opened; anything else fails its
authentication, or is refused for its length. -/
theorem wrap_exact (hmaster : keys.masterKey.length = Aes.keyLength)
    (hother : other.masterKey = keys.masterKey) (hopen : facility.isOpen) (hopened : opened.isOpen)
    (hlimit : contentKey.length ≤ Gcm.maxMessage) (description presented : Description) :
    ((∃ result next, keys.provider.wrap contentKey description facility = (.ok result, next)) ↔
        (keys.algorithm = .aesWrap → contentKey.length % 8 = 0 ∧ 16 ≤ contentKey.length)) ∧
      (∀ result next, keys.provider.wrap contentKey description facility = (.ok result, next) →
        result.algorithm = keys.algorithm.recorded ∧ result.description = description ∧
        result.bytes.length = contentKey.length + (if keys.algorithm = .aesWrap then 8 else 28) ∧
        other.provider.unwrap opened result.bytes result.algorithm presented =
          if contentKey = [] then .error (.malformed (.tooShort 28 28)) else .ok contentKey) ∧
      (∀ bytes key, other.provider.unwrap opened bytes .aesGcm presented = .ok key ↔
        key ≠ [] ∧ key.length ≤ Gcm.maxMessage ∧ IsSealed keys.masterKey key bytes) ∧
      ∀ bytes, (∀ key, key ≠ [] → key.length ≤ Gcm.maxMessage →
          ¬ IsSealed keys.masterKey key bytes) →
        other.provider.unwrap opened bytes .aesGcm presented =
          if 28 < bytes.length then .error (.cipher .authenticationFailure)
          else .error (.malformed (.tooShort 28 bytes.length)) := by
  have hotherLength : other.masterKey.length = Aes.keyLength := by rw [hother, hmaster]
  refine ⟨⟨?_, ?_⟩, ?_, ?_, ?_⟩
  · intro hwrapped halgorithm
    obtain ⟨result, next, hwrapped⟩ := hwrapped
    obtain ⟨bytes, hbytes, -⟩ := wrap_eq_ok_iff.mp hwrapped
    have hwraps := (length_of_wrapBytes hbytes).1
    rw [halgorithm] at hwraps
    exact hwraps
  · intro hlength
    have hwraps : keys.algorithm.Wraps contentKey.length := by
      cases halgorithm : keys.algorithm with
      | aesWrap => exact hlength halgorithm
      | aesGcm => exact hlimit
    obtain ⟨bytes, next, hbytes, -⟩ := exists_wrapBytes_eq_ok hmaster hopen hwraps
    exact ⟨_, next, wrap_eq_ok_iff.mpr ⟨bytes, hbytes, rfl⟩⟩
  · intro result next hwrapped
    obtain ⟨bytes, hbytes, rfl⟩ := wrap_eq_ok_iff.mp hwrapped
    refine ⟨rfl, rfl, ?_, unwrap_of_wrapBytes hopened hother hbytes⟩
    rw [(length_of_wrapBytes hbytes).2]
    cases keys.algorithm <;> rfl
  · intro bytes key
    rw [← hother]
    exact unwrapGcm_eq_ok_iff hopened hotherLength
  · intro bytes hnone
    show other.unwrapGcm bytes opened = _
    split
    next hlong =>
      rcases isSealed_or_unwrapGcm_eq_error hopened hotherLength hlong with
        ⟨key, hne, hlength, hsealed⟩ | hfailed
      · rw [hother] at hsealed
        exact absurd hsealed (hnone key hne hlength)
      · exact hfailed
    next hshort => exact unwrapGcm_of_short (Nat.le_of_not_lt hshort)

/-- Five bytes cannot be wrapped by key wrapping. In Galois counter mode they are wrapped to 33
bytes, which a provider for key wrapping opens too. Nothing at all is wrapped to 28 bytes, which are
refused. -/
theorem wrap_exact_five_and_none :
    (¬ ∃ result next, (LocalKeys.mk (Bytes.zeros 32) .aesWrap).provider.wrap [1, 2, 3, 4, 5] .empty
        exampleFacility = (.ok result, next)) ∧
      (∃ result next, (LocalKeys.mk (Bytes.zeros 32) .aesGcm).provider.wrap [1, 2, 3, 4, 5] .empty
          exampleFacility = (.ok result, next) ∧ result.bytes.length = 33 ∧
        (LocalKeys.mk (Bytes.zeros 32) .aesWrap).provider.unwrap exampleFacility result.bytes
          result.algorithm .empty = .ok [1, 2, 3, 4, 5]) ∧
      ∃ result next, (LocalKeys.mk (Bytes.zeros 32) .aesGcm).provider.wrap [] .empty
          exampleFacility = (.ok result, next) ∧ result.bytes.length = 28 ∧
        (LocalKeys.mk (Bytes.zeros 32) .aesWrap).provider.unwrap exampleFacility result.bytes
          result.algorithm .empty = .error (.malformed (.tooShort 28 28)) := by
  have hfive : ([1, 2, 3, 4, 5] : Bytes).length ≤ Gcm.maxMessage := Nat.le_of_ble_eq_true rfl
  refine ⟨fun hwrapped ↦ ?_, ?_, ?_⟩
  · have hexact := @wrap_exact ⟨Bytes.zeros 32, .aesWrap⟩ ⟨Bytes.zeros 32, .aesWrap⟩ exampleFacility
      exampleFacility _ rfl rfl rfl rfl hfive .empty .empty
    exact absurd (hexact.1.mp hwrapped rfl).1 (by decide)
  · obtain ⟨hsome, hall, -⟩ := @wrap_exact ⟨Bytes.zeros 32, .aesGcm⟩ ⟨Bytes.zeros 32, .aesWrap⟩
      exampleFacility exampleFacility _ rfl rfl rfl rfl hfive .empty .empty
    obtain ⟨result, next, hwrapped⟩ := hsome.mpr (fun halgorithm ↦ by cases halgorithm)
    obtain ⟨-, -, hlength, hopens⟩ := hall result next hwrapped
    exact ⟨result, next, hwrapped, hlength, hopens⟩
  · obtain ⟨hsome, hall, -⟩ := @wrap_exact ⟨Bytes.zeros 32, .aesGcm⟩ ⟨Bytes.zeros 32, .aesWrap⟩
      exampleFacility exampleFacility [] rfl rfl rfl rfl (Nat.zero_le _) .empty .empty
    obtain ⟨result, next, hwrapped⟩ := hsome.mpr (fun halgorithm ↦ by cases halgorithm)
    obtain ⟨-, -, hlength, hopens⟩ := hall result next hwrapped
    exact ⟨result, next, hwrapped, hlength, hopens⟩

end SealedStore.LocalKeys

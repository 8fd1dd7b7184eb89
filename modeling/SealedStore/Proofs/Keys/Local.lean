import SealedStore.Keys.Local
import SealedStore.Proofs.Cipher.Gcm
import SealedStore.Proofs.Cipher.KeyWrap
import SealedStore.Proofs.Facility

/-!
# Local providers unwrap what local providers wrap

What is wrapped by either algorithm is given in closed form (`wrapKeyWrap_eq_ok_iff`,
`wrapGcm_eq_ok_iff`). Under the same master key it is unwrapped to the same content key, whatever
the unwrapping provider would itself wrap by: `unwrap_wrapBytes`.
-/

namespace SealedStore

/-- The lengths of the content keys that an algorithm wraps. -/
def LocalAlgorithm.Wraps : LocalAlgorithm → Nat → Prop
  | .aesWrap, length => KeyWrap.IsKeyLength length
  | .aesGcm, length => length ≤ Gcm.maxMessage

/-- By how much a wrapped key is longer than its content key. -/
def LocalAlgorithm.overhead : LocalAlgorithm → Nat
  | .aesWrap => semiblockLength
  | .aesGcm => LocalKeys.ivLength + Gcm.tagLength

theorem LocalAlgorithm.overhead_pos (algorithm : LocalAlgorithm) : 0 < algorithm.overhead := by
  cases algorithm <;> decide

/-- Both algorithms wrap the keys of the content schemes. -/
theorem LocalAlgorithm.wraps_keyLength (algorithm : LocalAlgorithm) :
    algorithm.Wraps Aes.keyLength := by
  cases algorithm with
  | aesWrap => exact ⟨rfl, by decide⟩
  | aesGcm => exact Nat.le_of_ble_eq_true rfl

namespace LocalKeys

/-- The bytes are a content key sealed in Galois counter mode under a master key: the 96 bits of an
IV, the ciphertext under that IV, and its tag. -/
def IsSealed (masterKey contentKey bytes : Bytes) : Prop :=
  ∃ iv typedKey typedIv, masterKey.toBits? 256 = some typedKey ∧ iv.toBits? 96 = some typedIv ∧
    bytes = iv ++ Gcm.ciphertext (Aes.cipher typedKey) typedIv contentKey ++
      Gcm.messageTag (Aes.cipher typedKey) typedIv contentKey

variable {keys other : LocalKeys} {facility next : Facility} {contentKey iv wrapped : Bytes}

/-! ## Key wrapping -/

theorem wrapKeyWrap_eq_ok_iff :
    keys.wrapKeyWrap contentKey facility = .ok wrapped ↔
      facility.isOpen ∧ ∃ typedKey, keys.masterKey.toBits? 256 = some typedKey ∧
        KeyWrap.IsKeyLength contentKey.length ∧
        wrapped = Bytes.ofWords (KeyWrap.wrap (Aes.cipher typedKey) contentKey.semiblocks) := by
  rw [wrapKeyWrap, Outcome.bind_eq_ok_iff, Facility.process_wrapSession_eq_ok_iff]
  simp only [KeyWrap.message_encrypt_eq_ok_iff, exists_and_left, exists_eq, and_true]

theorem unwrapKeyWrap_wrapKeyWrap {opened : Facility} (hopen : opened.isOpen)
    (hmaster : other.masterKey = keys.masterKey)
    (hwrap : keys.wrapKeyWrap contentKey facility = .ok wrapped) :
    other.unwrapKeyWrap wrapped opened = .ok contentKey := by
  obtain ⟨-, typedKey, hkey, hlength, rfl⟩ := wrapKeyWrap_eq_ok_iff.mp hwrap
  rw [unwrapKeyWrap, Outcome.bind_eq_ok_iff, Facility.process_wrapSession_eq_ok_iff, hmaster]
  exact ⟨hopen, typedKey, hkey, [], KeyWrap.message_decrypt_wrap _ hlength []⟩

/-! ## Galois counter mode -/

theorem wrapGcm_eq_ok_iff :
    keys.wrapGcm contentKey iv facility = .ok wrapped ↔
      facility.isOpen ∧ ∃ typedKey typedIv, keys.masterKey.toBits? 256 = some typedKey ∧
        iv.toBits? 96 = some typedIv ∧ contentKey.length ≤ Gcm.maxMessage ∧
        wrapped = iv ++ Gcm.ciphertext (Aes.cipher typedKey) typedIv contentKey ++
          Gcm.messageTag (Aes.cipher typedKey) typedIv contentKey := by
  have hsteps : keys.wrapGcm contentKey iv facility = .ok wrapped ↔
      ∃ session, facility.contentSession .gcm keys.masterKey iv [] = .ok session ∧
        ∃ ciphertext, (session.process .encrypt contentKey).1 = .ok ciphertext ∧
          (session.process .encrypt contentKey).2.tag ≠ [] ∧
          wrapped = iv ++ ciphertext ++ (session.process .encrypt contentKey).2.tag := by
    simp only [wrapGcm, Outcome.bind_eq_ok_iff, Session.tag?]
    refine exists_congr fun session ↦ and_congr_right fun _ ↦ exists_congr fun ciphertext ↦
      and_congr_right fun _ ↦ ?_
    cases htag : (session.process .encrypt contentKey).2.tag <;> simp [eq_comm]
  rw [hsteps]
  constructor
  · intro hsteps
    obtain ⟨session, hsession, ciphertext, hanswer, -, rfl⟩ := hsteps
    obtain ⟨hopen, typedKey, typedIv, hkey, hiv, hmessage⟩ :=
      (Facility.process_contentSession_eq_ok_iff .gcm).mp ⟨session, hsession, hanswer, rfl⟩
    obtain ⟨hlength, rfl, htag⟩ := (Gcm.message_encrypt_eq_ok_iff _ _).mp hmessage
    rw [htag]
    exact ⟨hopen, typedKey, typedIv, hkey, hiv, hlength, rfl⟩
  · intro hform
    obtain ⟨hopen, typedKey, typedIv, hkey, hiv, hlength, rfl⟩ := hform
    obtain ⟨session, hsession, hanswer, htag⟩ :=
      (Facility.process_contentSession_eq_ok_iff .gcm).mpr ⟨hopen, typedKey, typedIv, hkey, hiv,
        (Gcm.message_encrypt_eq_ok_iff _ _).mpr ⟨hlength, rfl, rfl⟩⟩
    refine ⟨session, hsession, _, hanswer, ?_, by rw [htag]⟩
    rw [htag]
    exact Gcm.messageTag_ne_nil _ _ _

/-- Wrapping depends on the facility only in that it is open. -/
theorem wrapGcm_of_isOpen {opened : Facility} (hopen : opened.isOpen)
    (hwrap : keys.wrapGcm contentKey iv facility = .ok wrapped) :
    keys.wrapGcm contentKey iv opened = .ok wrapped := by
  rw [wrapGcm_eq_ok_iff] at hwrap ⊢
  exact ⟨hopen, hwrap.2⟩

theorem length_iv_of_wrapGcm (hwrap : keys.wrapGcm contentKey iv facility = .ok wrapped) :
    iv.length = ivLength := by
  obtain ⟨-, -, typedIv, -, hiv, -⟩ := wrapGcm_eq_ok_iff.mp hwrap
  have hbits := Bytes.exists_toBits?_eq_some_iff.mp ⟨typedIv, hiv⟩
  show iv.length = 12
  omega

/-- The wrapped key begins with the IV. -/
theorem take_of_wrapGcm (hwrap : keys.wrapGcm contentKey iv facility = .ok wrapped) :
    wrapped.take ivLength = iv := by
  have hlength := length_iv_of_wrapGcm hwrap
  obtain ⟨-, typedKey, typedIv, -, -, -, rfl⟩ := wrapGcm_eq_ok_iff.mp hwrap
  rw [List.append_assoc, List.take_left' hlength]

/-- The parts of a wrapped key, joined, are split again. -/
theorem split_append {ciphertext tag : Bytes} (hiv : iv.length = ivLength)
    (htag : tag.length = Gcm.tagLength) :
    split (iv ++ ciphertext ++ tag) = .ok (iv, ciphertext, tag) := by
  have hlength : (iv ++ ciphertext ++ tag).length =
      ivLength + (ciphertext.length + Gcm.tagLength) := by
    rw [List.length_append, List.length_append, hiv, htag, Nat.add_assoc]
  have hmiddle : ivLength + (ciphertext.length + Gcm.tagLength) - ivLength - Gcm.tagLength =
      ciphertext.length := by omega
  have hfront : ivLength + (ciphertext.length + Gcm.tagLength) - Gcm.tagLength =
      (iv ++ ciphertext).length := by rw [List.length_append, hiv]; omega
  unfold split Bytes.slice?
  rw [hlength, hmiddle, hfront, if_pos (by omega), if_pos (by omega),
    if_pos (by rw [List.length_append, hiv]; omega), List.drop_zero, List.append_assoc,
    List.take_left' hiv, List.drop_left' hiv, List.take_left' rfl, ← List.append_assoc,
    List.drop_left' rfl, List.take_of_length_le (Nat.le_of_eq htag)]

/-- A wrapped key longer than an IV and a tag has the three parts. -/
theorem exists_split (hlong : ivLength + Gcm.tagLength < wrapped.length) :
    ∃ iv ciphertext tag, wrapped = iv ++ ciphertext ++ tag ∧ iv.length = ivLength ∧
      ciphertext ≠ [] ∧ tag.length = Gcm.tagLength := by
  refine ⟨wrapped.take ivLength,
    (wrapped.drop ivLength).take (wrapped.length - ivLength - Gcm.tagLength),
    (wrapped.drop ivLength).drop (wrapped.length - ivLength - Gcm.tagLength), ?_, ?_, ?_, ?_⟩
  · rw [List.append_assoc, List.take_append_drop, List.take_append_drop]
  · rw [List.length_take]
    omega
  · refine List.ne_nil_of_length_pos ?_
    rw [List.length_take, List.length_drop]
    omega
  · rw [List.length_drop, List.length_drop]
    omega

/-- Three parts of the right lengths are split, and their ciphertext is opened against their tag. -/
theorem unwrapGcm_append {ciphertext tag : Bytes} {typedKey : Aes.Key} {typedIv : BitVec 96}
    {expected : Block} (hopen : facility.isOpen)
    (hkey : keys.masterKey.toBits? 256 = some typedKey) (hiv : iv.toBits? 96 = some typedIv)
    (htag : tag.toBits? 128 = some expected) (hne : ciphertext ≠ []) :
    keys.unwrapGcm (iv ++ ciphertext ++ tag) facility =
      if ciphertext.length ≤ Gcm.maxMessage ∧
          Gcm.tag (Aes.cipher typedKey) typedIv ciphertext = expected then
        .ok (Gcm.ciphertext (Aes.cipher typedKey) typedIv ciphertext)
      else .error (.cipher .authenticationFailure) := by
  have hivBits := Bytes.exists_toBits?_eq_some_iff.mp ⟨typedIv, hiv⟩
  have htagBits := Bytes.exists_toBits?_eq_some_iff.mp ⟨expected, htag⟩
  have hivLength : iv.length = ivLength := by show iv.length = 12; omega
  have htagLength : tag.length = Gcm.tagLength := by show tag.length = 16; omega
  have hlong : ¬ (iv ++ ciphertext ++ tag).length ≤ ivLength + Gcm.tagLength := by
    have hpos := List.length_pos_iff.mpr hne
    rw [List.length_append, List.length_append]
    omega
  have hsession : facility.contentSession .gcm keys.masterKey iv tag =
      .ok ⟨.gcm, typedKey, typedIv, tag, .fresh⟩ :=
    Facility.contentSession_eq_ok_iff.mpr
      ⟨hopen, Session.create_eq_ok_iff.mpr ⟨typedKey, typedIv, hkey, hiv, rfl⟩⟩
  have hmessage : (Session.machine ⟨.gcm, typedKey, typedIv, tag, .fresh⟩).message .decrypt
      ciphertext tag = _ := Gcm.message_decrypt (Aes.cipher typedKey) typedIv htag
  rw [unwrapGcm, if_neg hlong, split_append hivLength htagLength]
  show Except.mapError KeyError.cipher (facility.contentSession .gcm keys.masterKey iv tag >>=
    fun session ↦ (session.process .decrypt ciphertext).1) = _
  rw [hsession]
  show Except.mapError KeyError.cipher
    (Session.process .decrypt ciphertext ⟨.gcm, typedKey, typedIv, tag, .fresh⟩).1 = _
  rw [Session.process_eq_message rfl, hmessage]
  split <;> rfl

/-- A sealed content key that is not empty and not too long is opened. -/
theorem unwrapGcm_of_isSealed (hopen : facility.isOpen) (hne : contentKey ≠ [])
    (hlength : contentKey.length ≤ Gcm.maxMessage)
    (hsealed : IsSealed keys.masterKey contentKey wrapped) :
    keys.unwrapGcm wrapped facility = .ok contentKey := by
  obtain ⟨iv, typedKey, typedIv, hkey, hiv, rfl⟩ := hsealed
  rw [unwrapGcm_append hopen hkey hiv (Gcm.toBits?_messageTag _ _ _)
      (Gcm.ciphertext_ne_nil _ _ hne),
    Gcm.length_ciphertext, if_pos ⟨hlength, rfl⟩, Gcm.ciphertext_ciphertext]

theorem unwrapGcm_wrapGcm {opened : Facility} (hopen : opened.isOpen)
    (hmaster : other.masterKey = keys.masterKey) (hne : contentKey ≠ [])
    (hwrap : keys.wrapGcm contentKey iv facility = .ok wrapped) :
    other.unwrapGcm wrapped opened = .ok contentKey := by
  obtain ⟨-, typedKey, typedIv, hkey, hiv, hlength, hparts⟩ := wrapGcm_eq_ok_iff.mp hwrap
  exact unwrapGcm_of_isSealed hopen hne hlength
    ⟨iv, typedKey, typedIv, hmaster ▸ hkey, hiv, hparts⟩

/-! ## Both -/

/-- Wrapping in one or the other way, and the facility after it. -/
theorem wrapBytes_eq_ok_iff :
    keys.wrapBytes contentKey facility = (.ok wrapped, next) ↔
      match keys.algorithm with
      | .aesWrap => keys.wrapKeyWrap contentKey facility = .ok wrapped ∧ next = facility
      | .aesGcm => ∃ iv, Facility.draw ivLength facility = (.ok iv, next) ∧
          keys.wrapGcm contentKey iv next = .ok wrapped := by
  unfold wrapBytes
  cases keys.algorithm with
  | aesWrap =>
      simp only [Action.bind_eq_ok_iff, Action.get_eq_ok_iff, Action.liftExcept_eq_ok_iff]
      constructor
      · intro hsteps
        obtain ⟨_, _, ⟨rfl, rfl⟩, hwrap, rfl⟩ := hsteps
        exact ⟨hwrap, rfl⟩
      · intro hsteps
        obtain ⟨hwrap, rfl⟩ := hsteps
        exact ⟨next, next, ⟨rfl, rfl⟩, hwrap, rfl⟩
  | aesGcm =>
      simp only [Action.bind_eq_ok_iff, Action.get_eq_ok_iff, Action.liftExcept_eq_ok_iff]
      constructor
      · intro hsteps
        obtain ⟨iv, _, hdraw, _, _, ⟨rfl, rfl⟩, hwrap, rfl⟩ := hsteps
        exact ⟨iv, hdraw, hwrap⟩
      · intro hsteps
        obtain ⟨iv, hdraw, hwrap⟩ := hsteps
        exact ⟨iv, next, hdraw, next, next, ⟨rfl, rfl⟩, hwrap, rfl⟩

/-- Under one master key every local provider unwraps what another has wrapped. -/
theorem unwrap_wrapBytes {opened : Facility} (hopen : opened.isOpen)
    (hmaster : other.masterKey = keys.masterKey) (hkey : contentKey ≠ [])
    (hwrap : keys.wrapBytes contentKey facility = (.ok wrapped, next)) :
    other.unwrap opened wrapped keys.algorithm.recorded = .ok contentKey := by
  rw [wrapBytes_eq_ok_iff] at hwrap
  cases halgorithm : keys.algorithm with
  | aesWrap =>
      rw [halgorithm] at hwrap
      exact Outcome.mapError_eq_ok_iff.mpr (unwrapKeyWrap_wrapKeyWrap hopen hmaster hwrap.1)
  | aesGcm =>
      rw [halgorithm] at hwrap
      obtain ⟨iv, -, hwrapped⟩ := hwrap
      exact unwrapGcm_wrapGcm hopen hmaster hkey hwrapped

/-- A master key of the right length, an open facility and a content key of a length that the
algorithm wraps are all it takes. The facility stays open. -/
theorem exists_wrapBytes_eq_ok (hmaster : keys.masterKey.length = Aes.keyLength)
    (hopen : facility.isOpen) (hwraps : keys.algorithm.Wraps contentKey.length) :
    ∃ wrapped next, keys.wrapBytes contentKey facility = (.ok wrapped, next) ∧ next.isOpen := by
  have hbits : 8 * keys.masterKey.length = 256 := by rw [hmaster]; rfl
  obtain ⟨typedKey, htyped⟩ := Bytes.exists_toBits?_eq_some_iff.mpr hbits
  simp only [wrapBytes_eq_ok_iff]
  cases halgorithm : keys.algorithm with
  | aesWrap =>
      rw [halgorithm] at hwraps
      exact ⟨_, facility, ⟨wrapKeyWrap_eq_ok_iff.mpr ⟨hopen, typedKey, htyped, hwraps, rfl⟩, rfl⟩,
        hopen⟩
  | aesGcm =>
      rw [halgorithm] at hwraps
      have hdrawn := facility.source.length_bytes facility.drawn ivLength
      obtain ⟨typedIv, hiv⟩ := Bytes.exists_toBits?_eq_some_iff.mpr
        (show 8 * (facility.source.bytes facility.drawn ivLength).length = 96 by rw [hdrawn]; rfl)
      exact ⟨_, { facility with drawn := facility.drawn + 1 },
        ⟨_, Facility.draw_eq_ok_iff.mpr ⟨hopen, rfl, rfl⟩,
          wrapGcm_eq_ok_iff.mpr ⟨hopen, typedKey, typedIv, htyped, hiv, hwraps, rfl⟩⟩, hopen⟩

/-- What is wrapped had a length that the algorithm wraps, and is longer by the overhead. -/
theorem length_of_wrapBytes (hwrap : keys.wrapBytes contentKey facility = (.ok wrapped, next)) :
    keys.algorithm.Wraps contentKey.length ∧
      wrapped.length = contentKey.length + keys.algorithm.overhead := by
  rw [wrapBytes_eq_ok_iff] at hwrap
  cases halgorithm : keys.algorithm with
  | aesWrap =>
      rw [halgorithm] at hwrap
      obtain ⟨-, typedKey, -, hlength, rfl⟩ := wrapKeyWrap_eq_ok_iff.mp hwrap.1
      exact ⟨hlength, KeyWrap.length_wrap_bytes _ hlength⟩
  | aesGcm =>
      rw [halgorithm] at hwrap
      obtain ⟨iv, -, hwrapped⟩ := hwrap
      have hiv := length_iv_of_wrapGcm hwrapped
      obtain ⟨-, typedKey, typedIv, -, -, hlength, rfl⟩ := wrapGcm_eq_ok_iff.mp hwrapped
      refine ⟨hlength, ?_⟩
      rw [List.length_append, List.length_append, hiv, Gcm.length_ciphertext,
        Gcm.length_messageTag, LocalAlgorithm.overhead]
      omega

/-- The provider wraps by the algorithm of its own, and records the description as it is given. -/
theorem wrap_eq_ok_iff {description : Description} {result : WrappedKey} :
    keys.provider.wrap contentKey description facility = (.ok result, next) ↔
      ∃ bytes, keys.wrapBytes contentKey facility = (.ok bytes, next) ∧
        result = ⟨keys.algorithm.recorded, bytes, description⟩ := by
  simp only [provider, Action.bind_eq_ok_iff, Action.mapError_eq_ok_iff, Action.pure_eq_ok_iff]
  constructor
  · intro hsteps
    obtain ⟨bytes, _, hbytes, rfl, rfl⟩ := hsteps
    exact ⟨bytes, hbytes, rfl⟩
  · intro hwrapped
    obtain ⟨bytes, hbytes, rfl⟩ := hwrapped
    exact ⟨bytes, next, hbytes, rfl, rfl⟩

/-- What is wrapped is never empty. -/
theorem wrapBytes_ne_nil (hwrap : keys.wrapBytes contentKey facility = (.ok wrapped, next)) :
    wrapped ≠ [] := by
  refine List.ne_nil_of_length_pos ?_
  rw [(length_of_wrapBytes hwrap).2]
  exact Nat.add_pos_right _ keys.algorithm.overhead_pos

end LocalKeys

end SealedStore

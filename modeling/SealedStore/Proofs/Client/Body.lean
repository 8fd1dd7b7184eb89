import SealedStore.Client
import SealedStore.Proofs.Cipher.Cbc
import SealedStore.Proofs.Cipher.Ctr
import SealedStore.Proofs.Cipher.Gcm
import SealedStore.Proofs.Facility

/-!
# Bodies open to what they were sealed from

The body of an object in closed form is `Scheme.ciphertext` with `Scheme.tag` behind it, and sealing
succeeds exactly for the plaintexts that fit (`sealBody_eq_ok_iff`). Opening is the converse of
sealing, and not only on sealed bodies: a body opens to a plaintext exactly if that plaintext is
sealed to the body (`openBody_eq_ok_iff`).
-/

namespace SealedStore

theorem Bytes.splitEnd?_eq_some_iff {bytes front last : Bytes} {count : Nat} :
    bytes.splitEnd? count = some (front, last) ↔ bytes = front ++ last ∧ last.length = count := by
  unfold splitEnd?
  constructor
  · intro hsplit
    split at hsplit
    next hle =>
      cases hsplit
      rw [List.take_append_drop, List.length_drop]
      exact ⟨rfl, by omega⟩
    next => cases hsplit
  · intro hparts
    obtain ⟨rfl, rfl⟩ := hparts
    have hfront : (front ++ last).length - last.length = front.length := by
      rw [List.length_append, Nat.add_sub_cancel]
    rw [if_pos (by rw [List.length_append]; omega), hfront, List.take_left' rfl,
      List.drop_left' rfl]

namespace Scheme

/-- The length of the tag behind a ciphertext. -/
def tagLength (scheme : Scheme) : Nat :=
  if scheme.authenticated then Gcm.tagLength else 0

/-- Whether a plaintext is within the limits of a scheme. -/
def Fits (scheme : Scheme) (plaintext : Bytes) : Prop :=
  match scheme with
  | cbc => True
  | ctr => Ctr.blockCount plaintext ≤ Ctr.maxBlocks
  | gcm => plaintext.length ≤ Gcm.maxMessage

/-- The ciphertext of a plaintext. -/
def ciphertext : (scheme : Scheme) → Aes.Key → BitVec scheme.mode.ivBits → Bytes → Bytes
  | cbc, key, iv, plaintext => Cbc.ciphertext (Aes.cipher key) iv plaintext
  | ctr, key, iv, plaintext => Ctr.ciphertext (Aes.cipher key) iv plaintext
  | gcm, key, iv, plaintext => Gcm.ciphertext (Aes.cipher key) iv plaintext

/-- The tag of a plaintext, empty without authentication. -/
def tag : (scheme : Scheme) → Aes.Key → BitVec scheme.mode.ivBits → Bytes → Bytes
  | cbc, _, _, _ => []
  | ctr, _, _, _ => []
  | gcm, key, iv, plaintext => Gcm.messageTag (Aes.cipher key) iv plaintext

variable {scheme : Scheme} {key : Aes.Key} {iv : BitVec scheme.mode.ivBits}
  {plaintext output given final : Bytes}

@[simp] theorem length_tag (scheme : Scheme) (key : Aes.Key) (iv : BitVec scheme.mode.ivBits)
    (plaintext : Bytes) : (scheme.tag key iv plaintext).length = scheme.tagLength := by
  cases scheme with
  | cbc => rfl
  | ctr => rfl
  | gcm => exact Gcm.length_messageTag _ _ _

theorem length_ciphertext (hstream : scheme ≠ .cbc) :
    (scheme.ciphertext key iv plaintext).length = plaintext.length := by
  cases scheme with
  | cbc => exact absurd rfl hstream
  | ctr => exact Ctr.length_ciphertext _ _ _
  | gcm => exact Gcm.length_ciphertext _ _ _

/-- A tag of the length that the scheme wants is the tag that a session takes. -/
theorem ite_authenticated (hgiven : given.length = scheme.tagLength) :
    (if scheme.authenticated then given else []) = given := by
  unfold tagLength at hgiven
  split
  next => rfl
  next hplain =>
    rw [if_neg hplain] at hgiven
    exact (List.eq_nil_of_length_eq_zero hgiven).symm

/-- Encryption gives the ciphertext and the tag of every plaintext that fits. -/
theorem message_encrypt_eq_ok_iff :
    (scheme.mode.machine key iv).message .encrypt plaintext [] = .ok (output, final) ↔
      scheme.Fits plaintext ∧ output = scheme.ciphertext key iv plaintext ∧
        final = scheme.tag key iv plaintext := by
  cases scheme with
  | cbc =>
      refine (Cbc.message_encrypt_eq_ok_iff _ _).trans ?_
      simp [Fits, ciphertext, tag]
  | ctr => exact Ctr.message_encrypt_eq_ok_iff _ _
  | gcm => exact Gcm.message_encrypt_eq_ok_iff _ _

/-- Decryption gives exactly the plaintexts of which it is given the ciphertext and the tag. -/
theorem message_decrypt_eq_ok_iff (hgiven : given.length = scheme.tagLength) :
    (scheme.mode.machine key iv).message .decrypt output given = .ok (plaintext, final) ↔
      scheme.Fits plaintext ∧ output = scheme.ciphertext key iv plaintext ∧
        given = scheme.tag key iv plaintext ∧ final = given := by
  cases scheme with
  | cbc =>
      have hnil : given = [] := List.eq_nil_of_length_eq_zero hgiven
      refine (Cbc.message_decrypt_eq_ok_iff _ _).trans ?_
      simp [Fits, ciphertext, tag, hnil]
  | ctr =>
      have hnil : given = [] := List.eq_nil_of_length_eq_zero hgiven
      refine (Ctr.message_decrypt_eq_ok_iff _ _).trans ?_
      simp [Fits, ciphertext, tag, hnil]
  | gcm => exact Gcm.message_decrypt_eq_ok_iff _ _

end Scheme

namespace Client

variable {facility : Facility} {material : Material} {scheme : Scheme}
  {contentKey iv plaintext body : Bytes}

/-- A plaintext that fits is sealed to its ciphertext and its tag. -/
theorem sealBody_eq_ok_iff :
    sealBody facility scheme contentKey iv plaintext = .ok body ↔
      facility.isOpen ∧ ∃ typedKey typedIv, contentKey.toBits? 256 = some typedKey ∧
        iv.toBits? scheme.mode.ivBits = some typedIv ∧ scheme.Fits plaintext ∧
        body = scheme.ciphertext typedKey typedIv plaintext ++
          scheme.tag typedKey typedIv plaintext := by
  have hsteps : sealBody facility scheme contentKey iv plaintext = .ok body ↔
      ∃ session, facility.contentSession scheme contentKey iv [] = .ok session ∧
        ∃ ciphertext, (session.process .encrypt plaintext).1 = .ok ciphertext ∧
          body = ciphertext ++ (session.process .encrypt plaintext).2.tag := by
    simp only [sealBody, Outcome.bind_eq_ok_iff]
    refine exists_congr fun session ↦ and_congr_right fun _ ↦ exists_congr fun ciphertext ↦
      and_congr_right fun _ ↦ ?_
    show Except.ok _ = Except.ok body ↔ _
    rw [Except.ok.injEq, eq_comm]
  rw [hsteps]
  constructor
  · intro hsteps
    obtain ⟨session, hsession, ciphertext, hanswer, rfl⟩ := hsteps
    obtain ⟨hopen, typedKey, typedIv, hkey, hiv, hmessage⟩ :=
      (Facility.process_contentSession_eq_ok_iff scheme).mp ⟨session, hsession, hanswer, rfl⟩
    rw [ite_self] at hmessage
    obtain ⟨hfits, rfl, htag⟩ := Scheme.message_encrypt_eq_ok_iff.mp hmessage
    rw [htag]
    exact ⟨hopen, typedKey, typedIv, hkey, hiv, hfits, rfl⟩
  · intro hform
    obtain ⟨hopen, typedKey, typedIv, hkey, hiv, hfits, rfl⟩ := hform
    obtain ⟨session, hsession, hanswer, htag⟩ :=
      (Facility.process_contentSession_eq_ok_iff scheme).mpr
        ⟨hopen, typedKey, typedIv, hkey, hiv, by
          rw [ite_self]
          exact Scheme.message_encrypt_eq_ok_iff.mpr ⟨hfits, rfl, rfl⟩⟩
    exact ⟨session, hsession, _, hanswer, by rw [htag]⟩

/-- Only a key of the right length seals. -/
theorem length_of_sealBody (hseal : sealBody facility scheme contentKey iv plaintext = .ok body) :
    contentKey.length = Aes.keyLength := by
  obtain ⟨-, typedKey, -, hkey, -⟩ := sealBody_eq_ok_iff.mp hseal
  have hbits := Bytes.exists_toBits?_eq_some_iff.mp ⟨typedKey, hkey⟩
  show contentKey.length = 32
  omega

/-- Without padding a body is as long as its plaintext and its tag. -/
theorem length_body_of_sealBody (hstream : scheme ≠ .cbc)
    (hseal : sealBody facility scheme contentKey iv plaintext = .ok body) :
    body.length = plaintext.length + scheme.tagLength := by
  obtain ⟨-, typedKey, typedIv, -, -, -, rfl⟩ := sealBody_eq_ok_iff.mp hseal
  rw [List.length_append, Scheme.length_tag, Scheme.length_ciphertext hstream]

/-- A content key and an IV of the right lengths seal every plaintext that fits. -/
theorem exists_sealBody_eq_ok (hopen : facility.isOpen) (hkey : contentKey.length = Aes.keyLength)
    (hiv : iv.length = scheme.ivLength) (hfits : scheme.Fits plaintext) :
    ∃ body, sealBody facility scheme contentKey iv plaintext = .ok body := by
  have hkeyBits : 8 * contentKey.length = 256 := by rw [hkey]; rfl
  have hivBits := Scheme.width_iv_iff.mpr hiv
  obtain ⟨typedKey, htypedKey⟩ := Bytes.exists_toBits?_eq_some_iff.mpr hkeyBits
  obtain ⟨typedIv, htypedIv⟩ := Bytes.exists_toBits?_eq_some_iff.mpr hivBits
  exact ⟨_, sealBody_eq_ok_iff.mpr ⟨hopen, typedKey, typedIv, htypedKey, htypedIv, hfits, rfl⟩⟩

/-- Sealing depends on the facility only in that it is open. -/
theorem sealBody_eq_ok_of_isOpen {other : Facility} (hopen : other.isOpen)
    (hseal : sealBody facility scheme contentKey iv plaintext = .ok body) :
    sealBody other scheme contentKey iv plaintext = .ok body := by
  rw [sealBody_eq_ok_iff] at hseal ⊢
  exact ⟨hopen, hseal.2⟩

/-- The length of the tag behind a body, as the material of the body tells it. -/
theorem tagLength_of_valid (hvalid : material.Valid)
    (hauthenticated : material.scheme.authenticated) :
    material.tagBits?.getD tagBits / 8 = Gcm.tagLength := by
  rw [hvalid.tagBits?_eq, Scheme.tagBits?, if_pos hauthenticated]
  rfl

/-- A body is split before the tag of its scheme. -/
theorem splitBody_eq_ok_iff {ciphertext tag : Bytes} (hvalid : material.Valid) :
    splitBody material body = .ok (ciphertext, tag) ↔
      body = ciphertext ++ tag ∧ tag.length = material.scheme.tagLength := by
  unfold splitBody Scheme.tagLength
  by_cases hauthenticated : material.scheme.authenticated
  · simp only [if_pos hauthenticated, tagLength_of_valid hvalid hauthenticated]
    split
    next hshort =>
      constructor
      · intro hsplit
        cases hsplit
      · intro hparts
        obtain ⟨rfl, htag⟩ := hparts
        rw [List.length_append] at hshort
        omega
    next hlong =>
      rw [← Bytes.splitEnd?_eq_some_iff]
      split
      next parts hparts =>
        rw [hparts, Except.ok.injEq, Option.some.injEq]
      next hnone =>
        rw [hnone]
        constructor
        · intro hsplit
          cases hsplit
        · intro hsplit
          cases hsplit
  · simp only [if_neg hauthenticated]
    constructor
    · intro hsplit
      cases hsplit
      exact ⟨(List.append_nil body).symm, rfl⟩
    · intro hparts
      obtain ⟨rfl, htag⟩ := hparts
      rw [List.eq_nil_of_length_eq_zero htag, List.append_nil]

/-- The body of an object opens to a plaintext exactly if the plaintext is sealed to the body. -/
theorem openBody_eq_ok_iff (hvalid : material.Valid) :
    openBody facility material contentKey body = .ok plaintext ↔
      sealBody facility material.scheme contentKey material.iv plaintext = .ok body := by
  have hsteps : openBody facility material contentKey body = .ok plaintext ↔
      ∃ ciphertext tag, splitBody material body = .ok (ciphertext, tag) ∧
        ∃ session, facility.contentSession material.scheme contentKey material.iv tag =
            .ok session ∧
          (session.process .decrypt ciphertext).1 = .ok plaintext := by
    simp only [openBody, Outcome.bind_eq_ok_iff, Outcome.mapError_eq_ok_iff, Prod.exists]
  rw [hsteps, sealBody_eq_ok_iff]
  constructor
  · intro hsteps
    obtain ⟨ciphertext, tag, hsplit, session, hsession, hanswer⟩ := hsteps
    obtain ⟨rfl, htag⟩ := (splitBody_eq_ok_iff hvalid).mp hsplit
    obtain ⟨hopen, typedKey, typedIv, hkey, hiv, hmessage⟩ :=
      (Facility.process_contentSession_eq_ok_iff material.scheme).mp
        ⟨session, hsession, hanswer, rfl⟩
    rw [Scheme.ite_authenticated htag, Scheme.message_decrypt_eq_ok_iff htag] at hmessage
    obtain ⟨hfits, rfl, rfl, -⟩ := hmessage
    exact ⟨hopen, typedKey, typedIv, hkey, hiv, hfits, rfl⟩
  · intro hform
    obtain ⟨hopen, typedKey, typedIv, hkey, hiv, hfits, rfl⟩ := hform
    have htag := Scheme.length_tag material.scheme typedKey typedIv plaintext
    obtain ⟨session, hsession, hanswer, -⟩ :=
      (Facility.process_contentSession_eq_ok_iff material.scheme).mpr
        ⟨hopen, typedKey, typedIv, hkey, hiv, by
          rw [Scheme.ite_authenticated htag]
          exact (Scheme.message_decrypt_eq_ok_iff htag).mpr ⟨hfits, rfl, rfl, rfl⟩⟩
    exact ⟨_, _, (splitBody_eq_ok_iff hvalid).mpr ⟨rfl, htag⟩, session, hsession, hanswer⟩

end Client

end SealedStore

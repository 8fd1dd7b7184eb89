import SealedStore.Proofs.Cipher.Difference
import SealedStore.Proofs.Cipher.Gcm.Release
import SealedStore.Proofs.Cipher.Ghash

/-!
# Local changes of a ciphertext

A ciphertext that is changed inside one block has another tag, unless the key hashes under zero
(`tag_ne`): its blocks are the same but for that one, and so their hashes differ. A session
therefore refuses it under the tag of the ciphertext it was made from, and it refuses that
ciphertext under any other tag: `tamperEvident`.
-/

namespace SealedStore

namespace Gcm

/-- The block under which a key hashes, if it is a key. -/
def hashKey? (keyBytes : Bytes) : Option Block :=
  (keyBytes.toBits? 256).map fun key ↦ (Aes.cipher key).encrypt 0

variable {cipher : BlockCipher} {iv : BitVec 96} {index : Nat} {data changed given : Bytes}

/-- A ciphertext that is changed inside one block has another tag. -/
theorem tag_ne (hkey : cipher.encrypt 0 ≠ 0)
    (hdiffer : Bytes.DifferInside (Bytes.InBlock index) changed data) :
    tag cipher iv changed ≠ tag cipher iv data := by
  obtain ⟨before, first, second, after, hchanged, hdata, hne⟩ :=
    hdiffer.padded.exists_blocks (Bytes.dvd_length_padded changed)
  have hlast : lengthBlock changed = lengthBlock data := by
    rw [lengthBlock, lengthBlock, hdiffer.length_eq]
  rw [tag, tag, hashedBlocks, hashedBlocks, hchanged, hdata, hlast, List.append_assoc,
    List.append_assoc, List.cons_append, List.cons_append]
  exact fun heq ↦ Ghash.hash_ne hkey hne before _ ((BitVec.xor_left_inj _).mp heq)

variable {key : Aes.Key} {expected : Block}

/-- A session that holds another tag than that of its ciphertext refuses it. -/
theorem process_decrypt_of_tag_ne (hgiven : given.toBits? 128 = some expected)
    (hne : tag (Aes.cipher key) iv data ≠ expected) :
    ((fresh key iv given).process .decrypt data).1 = .error .authenticationFailure := by
  rw [Session.process_eq_message rfl, Outcome.map_eq_error_iff]
  refine (message_decrypt (Aes.cipher key) iv hgiven).trans ?_
  rw [if_neg fun hgenuine ↦ hne hgenuine.2]

/-- A session for the key, the IV and the tag says of the ciphertext that it does not go with the
tag. -/
def Refuses (keyBytes ivBytes given data : Bytes) : Prop :=
  ∃ session, Session.create .gcm keyBytes ivBytes given = .ok session ∧
    (session.process .decrypt data).1 = .error .authenticationFailure

/-- Whoever changes one block of the ciphertext, or the tag, is found out. A key that hashes under
zero protects the tag only. -/
structure TamperEvident (keyBytes ivBytes given data : Bytes) : Prop where
  ciphertext : hashKey? keyBytes ≠ some 0 → ∀ index changed,
    Bytes.DifferInside (Bytes.InBlock index) changed data → Refuses keyBytes ivBytes given changed
  tag : ∀ other, other.length = tagLength → other ≠ given → Refuses keyBytes ivBytes other data

/-- The ciphertext of a message and its tag are protected so. -/
theorem tamperEvident {keyBytes ivBytes message : Bytes} (hkey : keyBytes.toBits? 256 = some key)
    (hiv : ivBytes.toBits? 96 = some iv) :
    TamperEvident keyBytes ivBytes (messageTag (Aes.cipher key) iv message)
      (Gcm.ciphertext (Aes.cipher key) iv message) where
  ciphertext hhash index changed hchanged := by
    have hzero : (Aes.cipher key).encrypt 0 ≠ 0 := by
      rw [hashKey?, hkey] at hhash
      exact fun hzero ↦ hhash (congrArg some hzero)
    exact ⟨_, create_eq_ok_iff.mpr ⟨key, iv, hkey, hiv, rfl⟩,
      process_decrypt_of_tag_ne (toBits?_messageTag _ _ _) (tag_ne hzero hchanged)⟩
  tag other hother hdifferent := by
    obtain ⟨expected, hexpected⟩ := Bytes.exists_toBits?_eq_some_iff.mpr
      (show 8 * other.length = 128 by rw [hother]; rfl)
    refine ⟨_, create_eq_ok_iff.mpr ⟨key, iv, hkey, hiv, rfl⟩,
      process_decrypt_of_tag_ne hexpected fun hsame ↦ hdifferent ?_⟩
    rw [messageTag, hsame, Bytes.ofBits_of_toBits? hexpected]

/-- Under a key and an IV of the right lengths there is a session. It gives every message that is
not too long a ciphertext and a tag, and whatever it gives is protected so. -/
theorem exists_sealing {keyBytes ivBytes : Bytes} (hkey : keyBytes.length = Aes.keyLength)
    (hiv : ivBytes.length = Mode.gcm.ivLength) :
    ∃ session, Session.create .gcm keyBytes ivBytes [] = .ok session ∧
      (∀ message, message.length ≤ maxMessage → ∃ data given,
        (session.process .encrypt message).1 = .ok data ∧
          (session.process .encrypt message).2.tag? = some given) ∧
      ∀ message data given, (session.process .encrypt message).1 = .ok data →
        (session.process .encrypt message).2.tag? = some given →
          data.length = message.length ∧ TamperEvident keyBytes ivBytes given data := by
  obtain ⟨key, htypedKey⟩ := Bytes.exists_toBits?_eq_some_iff.mpr
    (show 8 * keyBytes.length = 256 by rw [hkey]; rfl)
  obtain ⟨iv, htypedIv⟩ := Bytes.exists_toBits?_eq_some_iff.mpr
    (show 8 * ivBytes.length = 96 by rw [hiv]; rfl)
  refine ⟨fresh key iv [], create_eq_ok_iff.mpr ⟨key, iv, htypedKey, htypedIv, rfl⟩, ?_, ?_⟩
  · intro message hmessage
    exact ⟨_, _, (process_encrypt_iff (messageTag_ne_nil _ _ message)).mpr ⟨hmessage, rfl, rfl⟩⟩
  · intro message data given hdata htag
    obtain ⟨-, rfl, rfl⟩ :=
      (process_encrypt_iff (Session.ne_nil_of_tag? htag)).mp ⟨hdata, htag⟩
    exact ⟨length_ciphertext _ _ _, tamperEvident htypedKey htypedIv⟩

end Gcm

end SealedStore

import SealedStore.Proofs.Cipher.Keystream
import SealedStore.Proofs.Cipher.Streaming

/-!
# Galois counter mode, both ways

A message is read exactly when its ciphertext comes with its own tag (`message_decrypt_eq_ok_iff`).
-/

namespace SealedStore.Gcm

variable (cipher : BlockCipher) (iv : BitVec 96)

/-- A message is kept until its end, so where it is cut is lost. -/
theorem streams : (machine cipher iv).Streams :=
  Machine.streams_of_kept fun _ _ _ ↦ rfl

/-- The ciphertext of a message. -/
def ciphertext (message : Bytes) : Bytes :=
  Keystream.mask (keystream cipher iv) 0 message

/-- The tag of a message in bytes. -/
def messageTag (message : Bytes) : Bytes :=
  Bytes.ofBits (tag cipher iv (ciphertext cipher iv message))

@[simp] theorem length_ciphertext (message : Bytes) :
    (ciphertext cipher iv message).length = message.length :=
  Keystream.length_mask _ _ _

theorem ciphertext_ne_nil {message : Bytes} (hmessage : message ≠ []) :
    ciphertext cipher iv message ≠ [] :=
  List.ne_nil_of_length_pos (by rw [length_ciphertext]; exact List.length_pos_iff.mpr hmessage)

@[simp] theorem ciphertext_ciphertext (message : Bytes) :
    ciphertext cipher iv (ciphertext cipher iv message) = message :=
  Keystream.mask_mask _ _ _

@[simp] theorem length_messageTag (message : Bytes) :
    (messageTag cipher iv message).length = tagLength :=
  Bytes.length_ofBits _

theorem messageTag_ne_nil (message : Bytes) : messageTag cipher iv message ≠ [] :=
  List.ne_nil_of_length_pos (by rw [length_messageTag]; decide)

@[simp] theorem toBits?_messageTag (message : Bytes) :
    (messageTag cipher iv message).toBits? 128 =
      some (tag cipher iv (ciphertext cipher iv message)) :=
  @Bytes.toBits?_ofBits 16 _

/-- Encryption gives the ciphertext and its tag, if the message is not too long. -/
theorem message_encrypt_eq_ok_iff {data output given final : Bytes} :
    (machine cipher iv).message .encrypt data given = .ok (output, final) ↔
      data.length ≤ maxMessage ∧ output = ciphertext cipher iv data ∧
        final = messageTag cipher iv data := by
  simp only [Machine.message, machine, List.nil_append]
  by_cases hlength : data.length ≤ maxMessage
  · rw [if_pos hlength]
    simp [hlength, ciphertext, messageTag, eq_comm]
  · rw [if_neg hlength]
    simp [hlength]

/-- With a tag of the right length, the end of decryption compares it with the tag of the ciphertext.
There is nothing left to mend. -/
theorem conclude_decrypt {data given : Bytes} {expected : Block}
    (hexpected : given.toBits? 128 = some expected) :
    (machine cipher iv).conclude .decrypt data given =
      if data.length ≤ maxMessage ∧ tag cipher iv data = expected then
        .done (ciphertext cipher iv data) given
      else .broken .authenticationFailure := by
  have hne : given.isEmpty = false := by
    cases given with
    | nil => simp [Bytes.toBits?] at hexpected
    | cons byte rest => rfl
  simp only [machine, hne, Bool.false_eq_true, ↓reduceIte, hexpected, ciphertext]

/-- So does the decryption of a message. -/
theorem message_decrypt {data given : Bytes} {expected : Block}
    (hexpected : given.toBits? 128 = some expected) :
    (machine cipher iv).message .decrypt data given =
      if data.length ≤ maxMessage ∧ tag cipher iv data = expected then
        .ok (ciphertext cipher iv data, given)
      else .error .authenticationFailure := by
  have habsorb : (machine cipher iv).absorb .decrypt ((machine cipher iv).start .decrypt) data =
      .ok ([], data) := rfl
  simp only [Machine.message, habsorb, conclude_decrypt cipher iv hexpected]
  by_cases hgenuine : data.length ≤ maxMessage ∧ tag cipher iv data = expected
  · simp only [if_pos hgenuine, List.nil_append]
  · simp only [if_neg hgenuine]

/-- Without such a tag there is no decryption. -/
theorem message_decrypt_ne_ok {data given : Bytes} (hgiven : given.toBits? 128 = none)
    (result : Bytes × Bytes) : (machine cipher iv).message .decrypt data given ≠ .ok result := by
  simp only [Machine.message, machine, List.nil_append, hgiven]
  cases given.isEmpty <;> simp

/-- Decryption gives a message exactly when it is given its ciphertext with its tag. -/
theorem message_decrypt_eq_ok_iff {data output given final : Bytes} :
    (machine cipher iv).message .decrypt data given = .ok (output, final) ↔
      output.length ≤ maxMessage ∧ data = ciphertext cipher iv output ∧
        given = messageTag cipher iv output ∧ final = given := by
  constructor
  · intro hmessage
    cases hexpected : given.toBits? 128 with
    | none => exact absurd hmessage (message_decrypt_ne_ok cipher iv hexpected _)
    | some expected =>
        rw [message_decrypt cipher iv hexpected] at hmessage
        split at hmessage
        next hgenuine =>
          obtain ⟨hlength, htag⟩ := hgenuine
          cases hmessage
          rw [length_ciphertext, messageTag, ciphertext_ciphertext, htag]
          exact ⟨hlength, rfl, (Bytes.ofBits_of_toBits? hexpected).symm, rfl⟩
        next => cases hmessage
  · intro hsealed
    obtain ⟨hlength, hdata, hgiven, hfinal⟩ := hsealed
    rw [hfinal, hgiven, hdata, message_decrypt cipher iv (toBits?_messageTag _ _ _),
      length_ciphertext,
      if_pos ⟨hlength, rfl⟩, ciphertext_ciphertext]

end SealedStore.Gcm

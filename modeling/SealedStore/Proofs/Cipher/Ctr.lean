import SealedStore.Proofs.Cipher.Keystream
import SealedStore.Proofs.Cipher.Streaming

/-!
# Counter mode, both ways

Counter mode masks the message, and the mask taken off is the mask put on
(`message_decrypt_eq_ok_iff`). Data in pieces is masked as at once, also within a block
(`streams`).
-/

namespace SealedStore.Ctr

variable (cipher : BlockCipher) (iv : Block)

/-- Counter mode does not see where its data is cut. The counters are used up by the pieces just if
they are used up by the whole, because the position only grows. -/
theorem streams : (machine cipher iv).Streams where
  absorb_start _ := by
    simp only [machine]
    rw [if_pos (by decide)]
    rfl
  absorb_append _ offset left right := by
    simp only [machine, List.length_append, ← Nat.add_assoc]
    generalize hreached : offset + left.length = reached
    by_cases hall : (reached + right.length + (blockLength - 1)) / blockLength ≤ maxBlocks
    · have hleft : (reached + (blockLength - 1)) / blockLength ≤ maxBlocks :=
        Nat.le_trans (Nat.div_le_div_right (by omega)) hall
      rw [if_pos hall, if_pos hleft, Keystream.mask_append, hreached]
      simp only [bind, Except.bind]
      rw [if_pos hall]
      rfl
    · rw [if_neg hall]
      by_cases hleft : (reached + (blockLength - 1)) / blockLength ≤ maxBlocks
      · rw [if_pos hleft]
        simp only [bind, Except.bind]
        rw [if_neg hall]
      · rw [if_neg hleft]
        rfl

/-- The ciphertext of a message. -/
def ciphertext (message : Bytes) : Bytes :=
  Keystream.mask (keystream cipher iv) 0 message

@[simp] theorem length_ciphertext (message : Bytes) :
    (ciphertext cipher iv message).length = message.length :=
  Keystream.length_mask _ _ _

@[simp] theorem ciphertext_ciphertext (message : Bytes) :
    ciphertext cipher iv (ciphertext cipher iv message) = message :=
  Keystream.mask_mask _ _ _

/-- How many blocks a message takes, the last of which may be short. -/
def blockCount (message : Bytes) : Nat :=
  (message.length + (blockLength - 1)) / blockLength

/-- A message that does not use up the counters is masked, in either direction. -/
theorem message_eq (direction : Direction) (data tag : Bytes) :
    (machine cipher iv).message direction data tag =
      if blockCount data ≤ maxBlocks then .ok (ciphertext cipher iv data, tag)
      else .error .keystreamExhausted := by
  simp only [Machine.message, machine, Nat.zero_add]
  by_cases hcount : blockCount data ≤ maxBlocks
  · rw [if_pos hcount, if_pos (by exact hcount)]
    simp only [List.append_nil, ciphertext]
  · rw [if_neg hcount, if_neg (by exact hcount)]

@[simp] theorem blockCount_ciphertext (message : Bytes) :
    blockCount (ciphertext cipher iv message) = blockCount message := by
  rw [blockCount, length_ciphertext, blockCount]

theorem message_encrypt_eq_ok_iff {data output tag final : Bytes} :
    (machine cipher iv).message .encrypt data tag = .ok (output, final) ↔
      blockCount data ≤ maxBlocks ∧ output = ciphertext cipher iv data ∧ final = tag := by
  rw [message_eq]
  by_cases hcount : blockCount data ≤ maxBlocks <;> simp [hcount, eq_comm]

/-- Decryption gives a message exactly when it is given the ciphertext of that message. -/
theorem message_decrypt_eq_ok_iff {data output tag final : Bytes} :
    (machine cipher iv).message .decrypt data tag = .ok (output, final) ↔
      blockCount output ≤ maxBlocks ∧ data = ciphertext cipher iv output ∧ final = tag := by
  have hinverse : output = ciphertext cipher iv data ↔ data = ciphertext cipher iv output :=
    ⟨fun h ↦ by rw [h, ciphertext_ciphertext], fun h ↦ by rw [h, ciphertext_ciphertext]⟩
  rw [message_eq, ← hinverse]
  constructor
  · intro hmessage
    split at hmessage
    next hcount =>
      cases hmessage
      exact ⟨by rwa [blockCount_ciphertext], rfl, rfl⟩
    next => cases hmessage
  · intro hsealed
    obtain ⟨hcount, rfl, rfl⟩ := hsealed
    rw [blockCount_ciphertext] at hcount
    rw [if_pos hcount]

end SealedStore.Ctr

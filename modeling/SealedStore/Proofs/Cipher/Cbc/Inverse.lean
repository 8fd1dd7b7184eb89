import SealedStore.Proofs.Cipher.Cbc
import SealedStore.Proofs.Facility

/-!
# Sessions that chain blocks

Read `process_chain_exact` first: under a key and an IV of the right lengths, fresh sessions encrypt
every message, decrypt exactly what they encrypt to, and tell apart the two reasons why something
else has no plaintext: it is cut off, or it does not end in padding. Chaining has no mistakes that
can be mended, so either failure is for good (`process_eq`).
-/

namespace SealedStore.Cbc

variable {cipher : BlockCipher} {iv : Block}

theorem conclude_ne_retry (direction : Direction) (work : Work) (tag : Bytes)
    (error : CipherError) : (machine cipher iv).conclude direction work tag ≠ .retry error := by
  intro hretry
  cases direction with
  | encrypt => cases hretry
  | decrypt =>
      simp only [machine] at hretry
      split at hretry
      next => cases hretry
      next => split at hretry <;> cases hretry

/-- A fresh session for chaining under a key and an IV. -/
def fresh (key : Aes.Key) (iv : Block) : Session := ⟨.cbc, key, iv, [], .fresh⟩

/-- A key and an IV of the right lengths give such a session. -/
theorem exists_create_eq_ok {keyBytes ivBytes : Bytes} (hkey : keyBytes.length = Aes.keyLength)
    (hiv : ivBytes.length = Mode.cbc.ivLength) :
    ∃ key iv, Session.create .cbc keyBytes ivBytes [] = .ok (fresh key iv) := by
  obtain ⟨key, iv, -, -, hcreate⟩ := @Session.exists_create_eq_ok .cbc keyBytes ivBytes hkey
    (by rw [hiv]; rfl)
  exact ⟨key, iv, hcreate []⟩

variable {key : Aes.Key} {direction : Direction} {data message : Bytes}

/-- A whole message finalizes such a session, or else poisons it. -/
theorem process_eq :
    (fresh key iv).process direction data =
      match (machine (Aes.cipher key) iv).message direction data [] with
      | .ok (output, tag) => (.ok output, { fresh key iv with tag, progress := .finalized })
      | .error error => (.error error, { fresh key iv with progress := .poisoned }) :=
  Session.process_of_message rfl fun _ _ ↦ conclude_ne_retry _ _ _ _

theorem process_encrypt :
    ((fresh key iv).process .encrypt message).1 =
      .ok (ciphertext (Aes.cipher key) iv message) := by
  rw [process_eq, message_encrypt]

/-- What is decrypted to a message. -/
theorem process_decrypt_eq_ok_iff :
    ((fresh key iv).process .decrypt data).1 = .ok message ↔
      data = ciphertext (Aes.cipher key) iv message := by
  rw [Session.process_eq_message rfl, Outcome.map_eq_ok_iff]
  constructor
  · intro hanswer
    obtain ⟨⟨_, _⟩, hmessage, rfl⟩ := hanswer
    exact ((message_decrypt_eq_ok_iff _ _).mp hmessage).1
  · intro hdata
    exact ⟨(message, []), (message_decrypt_eq_ok_iff _ _).mpr ⟨hdata, rfl⟩, rfl⟩

/-- A ciphertext is whole blocks, one at least. -/
theorem ciphertext_whole (cipher : BlockCipher) (iv : Block) (message : Bytes) :
    ciphertext cipher iv message ≠ [] ∧ blockLength ∣ (ciphertext cipher iv message).length := by
  refine ⟨List.ne_nil_of_length_pos ?_, dvd_length_ciphertext cipher iv message⟩
  rw [length_ciphertext]
  exact Nat.mul_pos (by decide) (Nat.succ_pos _)

/-- A byte string is the ciphertext of a message, or it is cut off, or it is whole blocks that do
not end in padding. Only in the first case there is an answer. -/
theorem process_decrypt_cases (key : Aes.Key) (iv : Block) (data : Bytes) :
    (∃ message, data = ciphertext (Aes.cipher key) iv message ∧
        ((fresh key iv).process .decrypt data).1 = .ok message) ∨
      (data = [] ∨ ¬ blockLength ∣ data.length) ∧
        (fresh key iv).process .decrypt data =
          (.error (.truncatedCiphertext (data.length % blockLength)),
            { fresh key iv with progress := .poisoned }) ∨
      (data ≠ [] ∧ blockLength ∣ data.length) ∧
        (∀ message, data ≠ ciphertext (Aes.cipher key) iv message) ∧
        (fresh key iv).process .decrypt data =
          (.error .badPadding, { fresh key iv with progress := .poisoned }) := by
  by_cases hcut : data = [] ∨ ¬ blockLength ∣ data.length
  · refine .inr (.inl ⟨hcut, ?_⟩)
    rw [process_eq, message_decrypt_truncated _ _ _ hcut]
  · rw [not_or, Decidable.not_not] at hcut
    obtain ⟨hne, haligned⟩ := hcut
    by_cases hsealed : ∃ message, data = ciphertext (Aes.cipher key) iv message
    · obtain ⟨message, hmessage⟩ := hsealed
      exact .inl ⟨message, hmessage, process_decrypt_eq_ok_iff.mpr hmessage⟩
    · have hnone := not_exists.mp hsealed
      refine .inr (.inr ⟨⟨hne, haligned⟩, hnone, ?_⟩)
      rw [process_eq, message_decrypt_of_forall_ne _ _ _ hne haligned hnone]

/-- Under a key and an IV of the right lengths there are sessions, and fresh ones encrypt every
message, to one block more than it has whole blocks. They decrypt a byte string to a message exactly
if they encrypt the message to it. A byte string that is empty or does not end at a block boundary
is reported as cut off, with the number of bytes after the last boundary, and one that is whole
blocks but the ciphertext of no message is reported as badly padded. There are no other failures,
and each of them is for good. -/
theorem process_chain_exact {keyBytes ivBytes : Bytes} (hkey : keyBytes.length = Aes.keyLength)
    (hiv : ivBytes.length = Mode.cbc.ivLength) :
    ∃ session, Session.create .cbc keyBytes ivBytes [] = .ok session ∧
      (∀ message, ∃ data, (session.process .encrypt message).1 = .ok data ∧
        data.length = (message.length / blockLength + 1) * blockLength) ∧
      (∀ data message, (session.process .decrypt data).1 = .ok message ↔
        (session.process .encrypt message).1 = .ok data) ∧
      (∀ data trailing, (session.process .decrypt data).1 = .error (.truncatedCiphertext trailing) ↔
        (data = [] ∨ ¬ blockLength ∣ data.length) ∧ trailing = data.length % blockLength) ∧
      (∀ data, (session.process .decrypt data).1 = .error .badPadding ↔
        (data ≠ [] ∧ blockLength ∣ data.length) ∧
          ∀ message, (session.process .encrypt message).1 ≠ .ok data) ∧
      ∀ data error, (session.process .decrypt data).1 = .error error →
        (error = .badPadding ∨ ∃ trailing, error = .truncatedCiphertext trailing) ∧
          (session.process .decrypt data).2 = { session with progress := .poisoned } := by
  obtain ⟨key, iv, hcreate⟩ := exists_create_eq_ok hkey hiv
  refine ⟨fresh key iv, hcreate, fun message ↦ ?_, fun data message ↦ ?_,
    fun data trailing ↦ ?_, fun data ↦ ?_, fun data error hanswer ↦ ?_⟩
  · refine ⟨_, process_encrypt, ?_⟩
    rw [length_ciphertext, Nat.mul_comm]
  · rw [process_decrypt_eq_ok_iff, process_encrypt, Except.ok.injEq, eq_comm]
  · rcases process_decrypt_cases key iv data with
      ⟨message, rfl, hok⟩ | ⟨hcut, hprocess⟩ | ⟨hwhole, -, hprocess⟩
    · simp [hok, ciphertext_whole]
    · simp [hprocess, hcut, eq_comm]
    · simp [hprocess, hwhole]
  · simp only [process_encrypt, ne_eq, Except.ok.injEq]
    rcases process_decrypt_cases key iv data with
      ⟨message, rfl, hok⟩ | ⟨hcut, hprocess⟩ | ⟨hwhole, hnone, hprocess⟩
    · simp [hok]
    · have hnot : ¬ (data ≠ [] ∧ blockLength ∣ data.length) :=
        fun hwhole ↦ hcut.elim hwhole.1 fun hunaligned ↦ hunaligned hwhole.2
      simp [hprocess, hnot]
    · simpa [hprocess, hwhole, eq_comm] using hnone
  · rcases process_decrypt_cases key iv data with
      ⟨message, -, hok⟩ | ⟨-, hprocess⟩ | ⟨-, -, hprocess⟩
    · rw [hok] at hanswer
      cases hanswer
    · rw [hprocess] at hanswer ⊢
      cases hanswer
      exact ⟨.inr ⟨_, rfl⟩, rfl⟩
    · rw [hprocess] at hanswer ⊢
      cases hanswer
      exact ⟨.inl rfl, rfl⟩

/-- Three bytes fit one block. One block less than that ciphertext is nothing, which is cut off, and
so is a single byte. -/
theorem process_chain_exact_zeros :
    ∃ session data, Session.create .cbc (Bytes.zeros 32) (Bytes.zeros 16) [] = .ok session ∧
      (session.process .encrypt [1, 2, 3]).1 = .ok data ∧ data.length = 16 ∧
      (session.process .decrypt data).1 = .ok [1, 2, 3] ∧
      (session.process .decrypt []).1 = .error (.truncatedCiphertext 0) ∧
      (session.process .decrypt [7]).1 = .error (.truncatedCiphertext 1) ∧
      (session.process .decrypt [7]).2.state = .poisoned := by
  obtain ⟨session, hcreate, hencrypt, hinverse, hcut, -, herror⟩ :=
    @process_chain_exact (Bytes.zeros 32) (Bytes.zeros 16) rfl rfl
  obtain ⟨data, hdata, hlength⟩ := hencrypt [1, 2, 3]
  have hseven : (session.process .decrypt [7]).1 = .error (.truncatedCiphertext 1) :=
    (hcut [7] 1).mpr ⟨.inr (by decide), rfl⟩
  refine ⟨session, data, hcreate, hdata, hlength, (hinverse data _).mpr hdata,
    (hcut [] 0).mpr ⟨.inl rfl, rfl⟩, hseven, ?_⟩
  rw [(herror _ _ hseven).2]
  rfl

end SealedStore.Cbc

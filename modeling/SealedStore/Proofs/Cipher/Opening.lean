import SealedStore.Proofs.Cipher.Cbc
import SealedStore.Proofs.Cipher.Ctr
import SealedStore.Proofs.Cipher.Gcm
import SealedStore.Proofs.Cipher.KeyWrap
import SealedStore.Proofs.Facility

/-!
# How opening can fail

Decryption is given whatever someone has stored. It takes bytes out of it at fixed places, and makes
numbers of a fixed width from parts of it; every such place is there when it comes to that
(`Cbc.unpad_in_bounds`, `KeyWrap.exists_semiblocks`). So the failures of a decryption are those that
the key or the data is to blame for, provided the IV and the tag have the lengths of the mode:
`Session.endsOpening_of_process`.
-/

namespace SealedStore

/-- Whether opening data can end in the failure. Reading outside a byte string is not among these,
nor are an IV or a tag of the wrong length, nor a session that is used out of order. -/
def CipherError.endsOpening : CipherError → Bool
  | .wrongLength .key _ _ | .facilityClosed => true
  | .authenticationFailure | .keyIntegrityFailure | .keyDataLength .decrypt _ => true
  | .keystreamExhausted | .badPadding | .truncatedCiphertext _ => true
  | _ => false

/-! ## Places that are there -/

/-- In the last block there is a last byte, and as many bytes before the end as it tells, provided
they are no more than a block. -/
theorem Cbc.unpad_in_bounds {last : Bytes} (hlast : last.length = blockLength) :
    ∃ count, last[blockLength - 1]? = some count ∧
      (1 ≤ count.toNat ∧ count.toNat ≤ blockLength →
        ∃ padding, last.slice? (blockLength - count.toNat) count.toNat = some padding) := by
  have hplace : blockLength - 1 < last.length := by rw [hlast]; decide
  refine ⟨last[blockLength - 1], List.getElem?_eq_getElem hplace, fun hrange ↦ ?_⟩
  exact ⟨_, by rw [Bytes.slice?, if_pos (by omega)]⟩

/-- A block is decrypted to a block. -/
theorem Cbc.length_decryptBlocks_block (cipher : BlockCipher) (chain : Block) {block : Bytes}
    (hblock : block.length = blockLength) :
    (Bytes.ofWords (decryptBlocks cipher chain block.blocks)).length = blockLength := by
  rw [Bytes.length_ofBlocks, length_decryptBlocks, Bytes.length_blocks, hblock]
  rfl

/-! ## Whole messages -/

section Message

variable {cipher : BlockCipher} {data given : Bytes} {error : CipherError}

theorem Cbc.endsOpening_of_message {iv : Block}
    (hmessage : (machine cipher iv).message .decrypt data given = .error error) :
    error.endsOpening := by
  by_cases hcut : data = [] ∨ ¬ blockLength ∣ data.length
  · rw [message_decrypt_truncated _ _ _ hcut] at hmessage
    cases hmessage
    rfl
  · rw [not_or, Decidable.not_not] at hcut
    have hnone : ∀ message, data ≠ ciphertext cipher iv message := by
      intro message hsealed
      rw [(message_decrypt_eq_ok_iff cipher iv).mpr ⟨hsealed, rfl⟩] at hmessage
      cases hmessage
    rw [message_decrypt_of_forall_ne _ _ _ hcut.1 hcut.2 hnone] at hmessage
    cases hmessage
    rfl

theorem Ctr.endsOpening_of_message {iv : Block}
    (hmessage : (machine cipher iv).message .decrypt data given = .error error) :
    error.endsOpening := by
  rw [message_eq] at hmessage
  split at hmessage
  next => cases hmessage
  next => cases hmessage; rfl

theorem Gcm.endsOpening_of_message {iv : BitVec 96} (hgiven : given.length = tagLength)
    (hmessage : (machine cipher iv).message .decrypt data given = .error error) :
    error.endsOpening := by
  obtain ⟨expected, hexpected⟩ := Bytes.exists_toBits?_eq_some_iff.mpr
    (show 8 * given.length = 128 by rw [hgiven]; rfl)
  rw [message_decrypt _ _ hexpected] at hmessage
  split at hmessage
  next => cases hmessage
  next => cases hmessage; rfl

theorem KeyWrap.endsOpening_of_message
    (hmessage : (machine cipher).message .decrypt data given = .error error) :
    error.endsOpening := by
  by_cases hwrapped : IsWrappedLength data.length
  · obtain ⟨check, rest, -, hdecrypt⟩ := message_decrypt cipher hwrapped given
    rw [hdecrypt] at hmessage
    split at hmessage
    next => cases hmessage
    next => cases hmessage; rfl
  · rw [message_decrypt_of_not cipher hwrapped] at hmessage
    cases hmessage
    rfl

theorem Mode.endsOpening_of_message {mode : Mode} {key : Aes.Key} {iv : BitVec mode.ivBits}
    (hgiven : mode.authenticated → given.length = Gcm.tagLength)
    (hmessage : (mode.machine key iv).message .decrypt data given = .error error) :
    error.endsOpening := by
  cases mode with
  | cbc => exact Cbc.endsOpening_of_message hmessage
  | ctr => exact Ctr.endsOpening_of_message hmessage
  | gcm => exact Gcm.endsOpening_of_message (hgiven rfl) hmessage
  | keyWrap => exact KeyWrap.endsOpening_of_message hmessage

end Message

/-! ## Sessions -/

/-- With an IV of the right length, only the key can keep a session from being made. -/
theorem Session.error_of_create {mode : Mode} {key iv tag : Bytes} {error : CipherError}
    (hiv : 8 * iv.length = mode.ivBits) (hcreate : Session.create mode key iv tag = .error error) :
    error = .wrongLength .key Aes.keyLength key.length := by
  obtain ⟨typedIv, htyped⟩ := Bytes.exists_toBits?_eq_some_iff.mpr hiv
  unfold Session.create at hcreate
  split at hcreate
  next => cases hcreate; rfl
  next =>
    rw [htyped] at hcreate
    cases hcreate

/-- A session for an IV and a tag of the right lengths ends its decryption with a plaintext or with
one of these failures, and so does the making of it. -/
theorem Session.endsOpening_of_process {mode : Mode} {key iv tag data : Bytes} {error : CipherError}
    (hiv : 8 * iv.length = mode.ivBits) (htag : mode.authenticated → tag.length = Gcm.tagLength)
    (hprocess : (Session.create mode key iv tag >>= fun session ↦
      (session.process .decrypt data).1) = .error error) : error.endsOpening := by
  rcases Outcome.bind_eq_error_iff.mp hprocess with hcreate | ⟨session, hcreate, hanswer⟩
  · rw [error_of_create hiv hcreate]
    rfl
  · obtain ⟨typedKey, typedIv, -, -, rfl⟩ := create_eq_ok_iff.mp hcreate
    rw [process_eq_message rfl, Outcome.map_eq_error_iff] at hanswer
    refine Mode.endsOpening_of_message (fun hauthenticated ↦ ?_) hanswer
    rw [if_pos hauthenticated]
    exact htag hauthenticated

namespace Facility

variable {facility : Facility} {key iv tag data : Bytes} {error : CipherError}

theorem endsOpening_of_contentSession {scheme : Scheme} (hiv : iv.length = scheme.ivLength)
    (htag : scheme.authenticated → tag.length = Gcm.tagLength)
    (hprocess : (facility.contentSession scheme key iv tag >>= fun session ↦
      (session.process .decrypt data).1) = .error error) : error.endsOpening := by
  unfold contentSession at hprocess
  split at hprocess
  next => exact Session.endsOpening_of_process (Scheme.width_iv_iff.mpr hiv) htag hprocess
  next => cases hprocess; rfl

theorem endsOpening_of_wrapSession
    (hprocess : (facility.wrapSession key >>= fun session ↦
      (session.process .decrypt data).1) = .error error) : error.endsOpening := by
  unfold wrapSession at hprocess
  split at hprocess
  next => exact Session.endsOpening_of_process rfl (fun h ↦ by cases h) hprocess
  next => cases hprocess; rfl

end Facility

end SealedStore

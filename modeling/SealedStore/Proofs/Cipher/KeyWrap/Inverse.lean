import SealedStore.Proofs.Cipher.KeyWrap
import SealedStore.Proofs.Facility

/-!
# Sessions that wrap and unwrap keys

Read `process_wrap_exact` first: over a master key of the right length, fresh sessions wrap exactly
the byte strings that have the length of a key, unwrap exactly what they wrap to, and answer
anything else with the failure that says why. Key wrapping has no mistakes that can be mended, so
each of these failures is for good (`process_eq`).
-/

namespace SealedStore.KeyWrap

variable {cipher : BlockCipher}

theorem conclude_ne_retry (direction : Direction) (work tag : Bytes) (error : CipherError) :
    (machine cipher).conclude direction work tag ≠ .retry error := by
  intro hretry
  cases direction with
  | encrypt =>
      simp only [machine] at hretry
      split at hretry <;> cases hretry
  | decrypt =>
      simp only [machine] at hretry
      split at hretry
      next =>
        split at hretry
        next => cases hretry
        next => split at hretry <;> cases hretry
      next => cases hretry

/-- A fresh session for wrapping under a key. -/
def session (key : Aes.Key) : Session := ⟨.keyWrap, key, 0, [], .fresh⟩

/-- A master key of the right length gives such a session. -/
theorem exists_create_eq_ok {masterKey : Bytes} (hlength : masterKey.length = Aes.keyLength) :
    ∃ key, masterKey.toBits? 256 = some key ∧
      Session.create .keyWrap masterKey [] [] = .ok (session key) := by
  obtain ⟨key, hkey⟩ : ∃ key, masterKey.toBits? 256 = some key :=
    Bytes.exists_toBits?_eq_some_iff.mpr (by rw [hlength]; rfl)
  exact ⟨key, hkey, Session.create_eq_ok_iff.mpr ⟨key, 0, hkey, rfl, rfl⟩⟩

variable {key : Aes.Key} {direction : Direction} {data : Bytes}

/-- A whole message finalizes such a session, or else poisons it. -/
theorem process_eq :
    (session key).process direction data =
      match (machine (Aes.cipher key)).message direction data [] with
      | .ok (output, tag) => (.ok output, { session key with tag, progress := .finalized })
      | .error error => (.error error, { session key with progress := .poisoned }) :=
  Session.process_of_message rfl fun _ _ ↦ conclude_ne_retry _ _ _ _

theorem process_of_message_error {error : CipherError}
    (hmessage : (machine (Aes.cipher key)).message direction data [] = .error error) :
    (session key).process direction data =
      (.error error, { session key with progress := .poisoned }) := by
  rw [process_eq, hmessage]

/-- What a key is wrapped to. -/
theorem process_encrypt_eq_ok_iff {output : Bytes} :
    ((session key).process .encrypt data).1 = .ok output ↔
      IsKeyLength data.length ∧ output = Bytes.ofWords (wrap (Aes.cipher key) data.semiblocks) := by
  rw [Session.process_eq_message rfl, Outcome.map_eq_ok_iff]
  constructor
  · intro hanswer
    obtain ⟨⟨_, _⟩, hmessage, rfl⟩ := hanswer
    obtain ⟨hkey, hwrap, -⟩ := (message_encrypt_eq_ok_iff _).mp hmessage
    exact ⟨hkey, hwrap⟩
  · intro hwrap
    exact ⟨(output, []), (message_encrypt_eq_ok_iff _).mpr ⟨hwrap.1, hwrap.2, rfl⟩, rfl⟩

/-- What is unwrapped to a key. -/
theorem process_decrypt_eq_ok_iff {output : Bytes} :
    ((session key).process .decrypt data).1 = .ok output ↔
      IsKeyLength output.length ∧
        data = Bytes.ofWords (wrap (Aes.cipher key) output.semiblocks) := by
  rw [Session.process_eq_message rfl, Outcome.map_eq_ok_iff]
  constructor
  · intro hanswer
    obtain ⟨⟨_, _⟩, hmessage, rfl⟩ := hanswer
    obtain ⟨hkey, hwrap, -⟩ := (message_decrypt_eq_ok_iff _).mp hmessage
    exact ⟨hkey, hwrap⟩
  · intro hwrap
    exact ⟨(output, []), (message_decrypt_eq_ok_iff _).mpr ⟨hwrap.1, hwrap.2, rfl⟩, rfl⟩

/-- Over a master key of the right length there are sessions, and fresh ones wrap exactly what has
the length of a key, to one semiblock more. They unwrap a byte string to a key exactly if they wrap
the key to it. All else fails for good: a wrong length is reported with the length, and a byte
string that could be a wrapped key by its length, but is none, fails the check. -/
theorem process_wrap_exact (masterKey : Bytes) (hlength : masterKey.length = Aes.keyLength) :
    ∃ session, Session.create .keyWrap masterKey [] [] = .ok session ∧
      (∀ key, (∃ wrapped, (session.process .encrypt key).1 = .ok wrapped) ↔
        IsKeyLength key.length) ∧
      (∀ key wrapped, (session.process .encrypt key).1 = .ok wrapped →
        wrapped.length = key.length + semiblockLength) ∧
      (∀ key wrapped, (session.process .decrypt wrapped).1 = .ok key ↔
        (session.process .encrypt key).1 = .ok wrapped) ∧
      (∀ key, ¬ IsKeyLength key.length → session.process .encrypt key =
        (.error (.keyDataLength .encrypt key.length), { session with progress := .poisoned })) ∧
      (∀ wrapped, IsWrappedLength wrapped.length →
        (∀ key, (session.process .encrypt key).1 ≠ .ok wrapped) → session.process .decrypt wrapped =
          (.error .keyIntegrityFailure, { session with progress := .poisoned })) ∧
      ∀ wrapped, ¬ IsWrappedLength wrapped.length → session.process .decrypt wrapped =
        (.error (.keyDataLength .decrypt wrapped.length),
          { session with progress := .poisoned }) := by
  obtain ⟨master, -, hcreate⟩ := exists_create_eq_ok hlength
  refine ⟨session master, hcreate, fun key ↦ ?_, fun key wrapped hwrap ↦ ?_,
    fun key wrapped ↦ ?_, fun key hkey ↦ ?_, fun wrapped hwrapped hnone ↦ ?_,
    fun wrapped hwrapped ↦ ?_⟩
  · simp only [process_encrypt_eq_ok_iff, exists_and_left, exists_eq, and_true]
  · obtain ⟨hkey, rfl⟩ := process_encrypt_eq_ok_iff.mp hwrap
    exact length_wrap_bytes _ hkey
  · rw [process_decrypt_eq_ok_iff, process_encrypt_eq_ok_iff]
  · exact process_of_message_error (message_encrypt_of_not _ hkey [])
  · refine process_of_message_error (message_decrypt_of_forall_ne _ hwrapped ?_ [])
    intro key hkey hwrap
    exact hnone key (process_encrypt_eq_ok_iff.mpr ⟨hkey, hwrap⟩)
  · exact process_of_message_error (message_decrypt_of_not _ hwrapped [])

theorem process_wrap_exact_zeros :
    ∃ session wrapped, Session.create .keyWrap (Bytes.zeros 32) [] [] = .ok session ∧
      (session.process .encrypt (Bytes.zeros 16)).1 = .ok wrapped ∧ wrapped.length = 24 ∧
      (session.process .decrypt wrapped).1 = .ok (Bytes.zeros 16) ∧
      (session.process .encrypt (Bytes.zeros 15)).2.state = .poisoned := by
  obtain ⟨session, hcreate, hok, hlength, hinverse, hrefused, -⟩ :=
    process_wrap_exact (Bytes.zeros 32) rfl
  obtain ⟨wrapped, hwrapped⟩ := (hok (Bytes.zeros 16)).mpr ⟨rfl, by decide⟩
  refine ⟨session, wrapped, hcreate, hwrapped, hlength _ _ hwrapped,
    (hinverse _ _).mpr hwrapped, ?_⟩
  rw [hrefused (Bytes.zeros 15) (fun hkey ↦ absurd hkey.1 (by decide))]
  rfl

end SealedStore.KeyWrap

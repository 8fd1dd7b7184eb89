import SealedStore.Proofs.Cipher.Device
import SealedStore.Proofs.Cipher.Lifecycle

/-!
# A reset gives back a new session

Whatever has been done with a session, and however it ended, after a reset it cannot be told from
the session that is newly created from the same key and IV without a tag: `reset_exact`. Nothing of
its history is left in the registers either.
-/

namespace SealedStore.Session

variable {session other created : Session} {mode : Mode} {key iv tag : Bytes}

theorem run_append (session : Session) (before later : List Operation) :
    (session.run (before ++ later)).2 = ((session.run before).2.run later).2 := by
  induction before generalizing session with
  | nil => rfl
  | cons operation rest ih => exact ih (session.step operation).2

theorem trace_append (session : Session) (before later : List Operation) :
    session.trace (before ++ later) =
      session.trace before ++ (session.run before).2.trace later := by
  induction before generalizing session with
  | nil => rfl
  | cons operation rest ih => exact congrArg _ (ih (session.step operation).2)

/-- A reset leaves nothing but what the session was made with. -/
theorem reset_eq_of_made (hmade : session.made = other.made) : session.reset = other.reset := by
  obtain ⟨mode, key, iv, _, _⟩ := session
  obtain ⟨_, _, _, _, _⟩ := other
  cases hmade
  rfl

/-- After a reset every session is the new one. -/
theorem run_reset (hcreate : Session.create mode key iv tag = .ok created)
    (before : List Operation) :
    Session.create mode key iv [] = .ok (created.run (before ++ [.reset])).2 := by
  obtain ⟨typedKey, typedIv, hkey, hiv, rfl⟩ := create_eq_ok_iff.mp hcreate
  refine create_eq_ok_iff.mpr ⟨typedKey, typedIv, hkey, hiv, ?_⟩
  rw [run_append, ite_self]
  exact reset_eq_of_made (made_run _ before)

/-- A session is created from a key and an IV, with any tag, any operations are done with it, and it
is reset. Then it is the session newly created from that key and IV without a tag, and every later
sequence of operations is answered, and leaves states and tags, as on that session. The same holds
of its device, which shows all along what the session shows: all of its registers are as they were
when it was new. -/
theorem reset_exact (hcreate : Session.create mode key iv tag = .ok created)
    (before : List Operation) :
    ∃ fresh, Session.create mode key iv [] = .ok fresh ∧
      (created.run (before ++ [.reset])).2 = fresh ∧
      created.device.after (before ++ [.reset]) = fresh.device ∧
      ∀ later,
        created.trace (before ++ .reset :: later) =
          created.trace (before ++ [.reset]) ++ fresh.trace later ∧
        created.device.trace (before ++ .reset :: later) =
          created.device.trace (before ++ [.reset]) ++ fresh.device.trace later ∧
        created.device.trace (before ++ .reset :: later) =
          created.trace (before ++ .reset :: later) := by
  have hfresh := run_reset hcreate before
  have hshows := (shows_device hcreate).after (before ++ [.reset])
  have hprogress : (created.run (before ++ [.reset])).2.progress = .fresh := by
    rw [run_append]
    rfl
  have htrace : ∀ later, created.trace (before ++ .reset :: later) =
      created.trace (before ++ [.reset]) ++
        (created.run (before ++ [.reset])).2.trace later := fun later ↦ by
    rw [← trace_append, List.append_assoc, List.singleton_append]
  refine ⟨_, hfresh, rfl, hshows.eq_device hprogress, fun later ↦ ⟨htrace later, ?_, ?_⟩⟩
  · rw [trace_device hcreate, trace_device hcreate, trace_device hfresh, htrace]
  · exact trace_device hcreate _

/-- Two sessions in the middle of their work. One in Galois counter mode holds a tag of three bytes,
which decryption does not take; one with chaining is poisoned by a byte of ciphertext, and its
engine is still set for decryption. After a reset the first has neither the tag nor the ciphertext,
the engine of the second is idle, and what is done next is done as on a new session. -/
theorem reset_exact_midway :
    (∃ created, Session.create .gcm (Bytes.zeros 32) (Bytes.zeros 12) [1, 2, 3] = .ok created ∧
      created.device.after [.feed .decrypt [9], .finalize .decrypt] =
        ⟨.gcm, 0, 0, [1, 2, 3], .decrypting, ([9] : Bytes)⟩ ∧
      created.device.after [.feed .decrypt [9], .finalize .decrypt, .reset] =
        ⟨.gcm, 0, 0, [], .fresh, ([] : Bytes)⟩) ∧
    ∃ created, Session.create .cbc (Bytes.zeros 32) (Bytes.zeros 16) [] = .ok created ∧
      created.device.after [.feed .decrypt [9], .finalize .decrypt] =
        ⟨.cbc, 0, 0, [], .poisoned, ⟨.decrypting 0, []⟩⟩ ∧
      created.device.after [.feed .decrypt [9], .finalize .decrypt, .reset] =
        ⟨.cbc, 0, 0, [], .fresh, ⟨.idle, []⟩⟩ ∧
      ∀ later, created.trace (.feed .decrypt [9] :: .finalize .decrypt :: .reset :: later) =
        created.trace [.feed .decrypt [9], .finalize .decrypt, .reset] ++ created.trace later := by
  have hkey : (Bytes.zeros 32).toBits? 256 = some 0 := by decide
  refine ⟨?_, ?_⟩
  · have hiv : (Bytes.zeros 12).toBits? 96 = some 0 := by decide
    have hcreate : Session.create .gcm (Bytes.zeros 32) (Bytes.zeros 12) [1, 2, 3] =
        .ok ⟨.gcm, 0, 0, [1, 2, 3], .fresh⟩ := create_eq_ok_iff.mpr ⟨_, _, hkey, hiv, rfl⟩
    obtain ⟨fresh, -, rfl, hdevice, -⟩ :=
      reset_exact hcreate [.feed .decrypt [9], .finalize .decrypt]
    exact ⟨_, hcreate, rfl, hdevice⟩
  · have hiv : (Bytes.zeros 16).toBits? 128 = some 0 := by decide
    have hcreate : Session.create .cbc (Bytes.zeros 32) (Bytes.zeros 16) [] =
        .ok ⟨.cbc, 0, 0, [], .fresh⟩ := create_eq_ok_iff.mpr ⟨_, _, hkey, hiv, rfl⟩
    obtain ⟨fresh, -, rfl, hdevice, hlater⟩ :=
      reset_exact hcreate [.feed .decrypt [9], .finalize .decrypt]
    exact ⟨_, hcreate, rfl, hdevice, fun later ↦ (hlater later).1⟩

end SealedStore.Session

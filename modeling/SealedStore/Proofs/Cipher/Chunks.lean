import SealedStore.Proofs.Cipher.Cbc
import SealedStore.Proofs.Cipher.Ctr
import SealedStore.Proofs.Cipher.Gcm
import SealedStore.Proofs.Cipher.KeyWrap

/-!
# Chunks do not show

Every mode streams, so a caller may cut a message wherever it likes: a fresh session answers it as
in one piece (`run_inChunks_eq_process`).
-/

namespace SealedStore

/-- No mode sees where its data is cut. -/
theorem Mode.streams (mode : Mode) (key : Aes.Key) (iv : BitVec mode.ivBits) :
    (mode.machine key iv).Streams := by
  cases mode with
  | cbc => exact Cbc.streams _ _
  | ctr => exact Ctr.streams _ _
  | gcm => exact Gcm.streams _ _
  | keyWrap => exact KeyWrap.streams _

namespace Session

variable {session : Session}

/-- A fresh session that is fed a message in chunks and then ended gives what it gives for the whole
message: the same output or the same failure, and the same session after it, its state and its tag
included. This holds in every mode and in both directions, however many chunks there are and however
long each of them is. -/
theorem run_inChunks_eq_process (hfresh : session.progress = .fresh) (direction : Direction)
    (chunks : List Bytes) :
    (joined (session.run (inChunks direction chunks)).1,
        (session.run (inChunks direction chunks)).2) =
      session.process direction chunks.flatten := by
  have hstreams : session.machine.Streams := session.mode.streams session.key session.iv
  exact run_inChunks_of_ready hstreams (ready_of_fresh hstreams hfresh) chunks

theorem run_inChunks_eq_process_truncated :
    ∃ session, Session.create .cbc (Bytes.zeros 32) (Bytes.zeros 16) [] = .ok session ∧
      session.progress = .fresh ∧
      joined (session.run (inChunks .decrypt [[1], [], [2, 3]])).1 =
        .error (.truncatedCiphertext 3) ∧
      (session.run (inChunks .decrypt [[1], [], [2, 3]])).2 =
        (session.process .decrypt [1, 2, 3]).2 := by
  have hkey : (Bytes.zeros 32).toBits? 256 = some 0 := by decide
  have hiv : (Bytes.zeros 16).toBits? 128 = some 0 := by decide
  refine ⟨⟨.cbc, 0, 0, [], .fresh⟩, by simp [create, hkey, Mode.ivBits, hiv], rfl, ?_⟩
  have hsame := @run_inChunks_eq_process ⟨.cbc, 0, 0, [], .fresh⟩ rfl .decrypt [[1], [], [2, 3]]
  exact ⟨(congrArg Prod.fst hsame).trans rfl, congrArg Prod.snd hsame⟩

end Session

end SealedStore

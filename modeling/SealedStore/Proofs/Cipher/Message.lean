import SealedStore.Cipher.Session

/-!
# Whole messages

What a fresh session answers when it is given one message from beginning to end. It is what its
machine makes of the message (`process_eq_message`), so the laws of the modes can be stated of the
machines alone.
-/

namespace SealedStore

/-- All that a machine gives for one message: the output, and the tag of the session after it. -/
def Machine.message {Work : Type} (machine : Machine Work) (direction : Direction)
    (data tag : Bytes) : Except CipherError (Bytes × Bytes) :=
  match machine.absorb direction (machine.start direction) data with
  | .error error => .error error
  | .ok (head, work) =>
      match machine.conclude direction work tag with
      | .done tail final => .ok (head ++ tail, final)
      | .retry error => .error error
      | .broken error => .error error

namespace Session

variable {session : Session} {direction : Direction} {data : Bytes}

/-- A session that is under way ends as its machine does. -/
theorem finalize_of_active (work : session.mode.Work) :
    finalize direction { session with progress := .active direction work } =
      match session.machine.conclude direction work session.tag with
      | .done output tag => (.ok output, { session with tag, progress := .finalized })
      | .retry error => (.error error, { session with progress := .active direction work })
      | .broken error => (.error error, { session with progress := .poisoned }) := by
  simp only [finalize, Progress.enter, ↓reduceIte]
  rfl

/-- Processing on a fresh session is the machine's start, its data and its end. -/
theorem process_of_fresh (hfresh : session.progress = .fresh) :
    session.process direction data =
      match session.machine.absorb direction (session.machine.start direction) data with
      | .error error => (.error error, { session with progress := .poisoned })
      | .ok (head, work) =>
          match session.machine.conclude direction work session.tag with
          | .done tail tag => (.ok (head ++ tail), { session with tag, progress := .finalized })
          | .retry error => (.error error, { session with progress := .active direction work })
          | .broken error => (.error error, { session with progress := .poisoned }) := by
  simp only [process, feed, hfresh, Progress.enter]
  cases session.machine.absorb direction (session.machine.start direction) data with
  | error error => rfl
  | ok fed =>
      simp only [finalize_of_active]
      cases session.machine.conclude direction fed.2 session.tag <;> rfl

/-- A fresh session answers a whole message with what its machine makes of it. -/
theorem process_eq_message (hfresh : session.progress = .fresh) :
    (session.process direction data).1 =
      (session.machine.message direction data session.tag).map (·.1) := by
  rw [process_of_fresh hfresh, Machine.message]
  cases session.machine.absorb direction (session.machine.start direction) data with
  | error error => rfl
  | ok fed =>
      dsimp only
      cases session.machine.conclude direction fed.2 session.tag <;> rfl

/-- The tag of a session after a whole message is the tag that its machine gives. -/
theorem tag_process {output tag : Bytes} (hfresh : session.progress = .fresh)
    (hmessage : session.machine.message direction data session.tag = .ok (output, tag)) :
    (session.process direction data).2.tag = tag := by
  rw [process_of_fresh hfresh]
  revert hmessage
  unfold Machine.message
  cases session.machine.absorb direction (session.machine.start direction) data with
  | error error => simp
  | ok fed =>
      dsimp only
      cases session.machine.conclude direction fed.2 session.tag <;> simp

/-- If the machine never asks to try the end again, a whole message finalizes the session or poisons
it. -/
theorem process_of_message (hfresh : session.progress = .fresh)
    (hends : ∀ work error, session.machine.conclude direction work session.tag ≠ .retry error) :
    session.process direction data =
      match session.machine.message direction data session.tag with
      | .ok (output, tag) => (.ok output, { session with tag, progress := .finalized })
      | .error error => (.error error, { session with progress := .poisoned }) := by
  rw [process_of_fresh hfresh, Machine.message]
  cases session.machine.absorb direction (session.machine.start direction) data with
  | error error => rfl
  | ok fed =>
      dsimp only
      cases hend : session.machine.conclude direction fed.2 session.tag with
      | done tail tag => rfl
      | retry error => exact absurd hend (hends _ _)
      | broken error => rfl

end Session

end SealedStore

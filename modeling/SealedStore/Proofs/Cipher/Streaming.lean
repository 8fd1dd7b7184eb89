import SealedStore.Proofs.Cipher.Message

/-!
# Messages in chunks

A machine streams if it makes of two pieces of data, one after the other, what it makes of both at
once. A session with such a machine answers a message that it is fed in chunks as it answers the
message in one piece: `run_inChunks_of_ready`.
-/

namespace SealedStore

namespace Machine

variable {Work : Type} {machine : Machine Work} {direction : Direction} {work : Work}

/-- The machine does not see where its data is cut: two pieces are absorbed as one, with the same
output and the same failure, and at the start there is nothing to release. -/
structure Streams (machine : Machine Work) : Prop where
  absorb_start : ∀ direction,
    machine.absorb direction (machine.start direction) [] = .ok ([], machine.start direction)
  absorb_append : ∀ direction work left right,
    machine.absorb direction work (left ++ right) = do
      let (head, next) ← machine.absorb direction work left
      let (tail, last) ← machine.absorb direction next right
      return (head ++ tail, last)

/-- A machine that keeps all its data for the end does not see where it is cut. -/
theorem streams_of_kept {machine : Machine Bytes} (hkept : ∀ direction pending data,
    machine.absorb direction pending data = .ok ([], pending ++ data)) : machine.Streams where
  absorb_start direction := by rw [hkept, List.append_nil]
  absorb_append direction pending left right := by
    simp [hkept, bind, Except.bind, pure, Except.pure]

/-- All that can be released has been released: no data changes nothing. -/
def Settled (machine : Machine Work) (direction : Direction) (work : Work) : Prop :=
  machine.absorb direction work [] = .ok ([], work)

/-- What a streaming machine carries on is settled, because the data it has absorbed is that data
followed by nothing. -/
theorem settled_of_absorb (hstreams : machine.Streams) {data output : Bytes} {next : Work}
    (habsorb : machine.absorb direction work data = .ok (output, next)) :
    machine.Settled direction next := by
  have hnothing := hstreams.absorb_append direction work data []
  rw [List.append_nil, habsorb] at hnothing
  unfold Settled
  cases hrest : machine.absorb direction next [] with
  | error error => simp [hrest, bind, Except.bind] at hnothing
  | ok rest =>
      obtain ⟨tail, last⟩ := rest
      simp only [hrest, bind, Except.bind, pure, Except.pure, Except.ok.injEq, Prod.mk.injEq,
        List.self_eq_append_right] at hnothing
      obtain ⟨rfl, rfl⟩ := hnothing
      rfl

end Machine

namespace Session

variable {session : Session} {direction : Direction}

/-- Two calls, the second on the session that the first leaves. The outputs are put together; if
the first fails there is no second. -/
def followedBy (first : Except CipherError Bytes × Session)
    (second : Session → Except CipherError Bytes × Session) : Except CipherError Bytes × Session :=
  match first with
  | (.error error, failed) => (.error error, failed)
  | (.ok head, reached) => ((second reached).1.map (head ++ ·), (second reached).2)

theorem followedBy_assoc (first : Except CipherError Bytes × Session)
    (second third : Session → Except CipherError Bytes × Session) :
    followedBy (followedBy first second) third =
      followedBy first fun reached ↦ followedBy (second reached) third := by
  obtain ⟨answer, reached⟩ := first
  cases answer with
  | error error => rfl
  | ok head =>
      simp only [followedBy]
      obtain ⟨middle, next⟩ := second reached
      cases middle with
      | error error => rfl
      | ok body =>
          simp only [Except.map]
          cases (third next).1 <;> simp

theorem process_eq_followedBy (data : Bytes) :
    session.process direction data =
      followedBy (session.feed direction data) (·.finalize direction) := by
  rw [process]
  obtain ⟨answer, fed⟩ := session.feed direction data
  cases answer with
  | error error => rfl
  | ok head =>
      simp only [followedBy]
      obtain ⟨rest, ended⟩ := fed.finalize direction
      cases rest <;> rfl

/-! ## Sessions with a streaming machine -/

theorem feed_of_enter {work : session.mode.Work} {data : Bytes}
    (henter : session.progress.enter session.machine direction = .ok work) :
    session.feed direction data =
      match session.machine.absorb direction work data with
      | .error error => (.error error, { session with progress := .poisoned })
      | .ok (output, next) =>
          (.ok output, { session with progress := .active direction next }) := by
  cases habsorb : session.machine.absorb direction work data <;> simp only [feed, henter, habsorb]

/-- A session that is under way goes on as its machine does. -/
theorem feed_of_active (work : session.mode.Work) (data : Bytes) :
    feed direction data { session with progress := .active direction work } =
      match session.machine.absorb direction work data with
      | .error error => (.error error, { session with progress := .poisoned })
      | .ok (output, next) =>
          (.ok output, { session with progress := .active direction next }) := by
  simp only [feed, Progress.enter, ↓reduceIte, machine]
  cases (session.mode.machine session.key session.iv).absorb direction work data <;> rfl

/-- Feeding two pieces is feeding the first and then the second, whatever the session. -/
theorem feed_append (hstreams : session.machine.Streams) (left right : Bytes) :
    session.feed direction (left ++ right) =
      followedBy (session.feed direction left) (·.feed direction right) := by
  cases henter : session.progress.enter session.machine direction with
  | error error => simp only [feed, henter, followedBy]
  | ok work =>
      rw [feed_of_enter henter, feed_of_enter henter, hstreams.absorb_append]
      cases session.machine.absorb direction work left with
      | error error => rfl
      | ok fed =>
          simp only [followedBy, feed_of_active, bind, Except.bind]
          cases session.machine.absorb direction fed.2 right <;> rfl

/-- Processing two pieces is feeding the first and processing the second. -/
theorem process_append (hstreams : session.machine.Streams) (left right : Bytes) :
    session.process direction (left ++ right) =
      followedBy (session.feed direction left) (·.process direction right) := by
  simp only [process_eq_followedBy, feed_append hstreams, followedBy_assoc]

/-- The session can go on in the direction, and its machine is settled. -/
def Ready (session : Session) (direction : Direction) : Prop :=
  ∃ work, session.progress.enter session.machine direction = .ok work ∧
    session.machine.Settled direction work

theorem ready_of_fresh (hstreams : session.machine.Streams) (hfresh : session.progress = .fresh) :
    session.Ready direction := by
  refine ⟨session.machine.start direction, ?_, hstreams.absorb_start direction⟩
  rw [hfresh, Progress.enter]

/-- A session that could go on and has answered can go on, and its machine is as before. -/
theorem ready_feed (hstreams : session.machine.Streams) (hready : session.Ready direction)
    {data output : Bytes} {next : Session}
    (hfeed : session.feed direction data = (.ok output, next)) :
    next.Ready direction ∧ next.machine.Streams := by
  obtain ⟨work, henter, _⟩ := hready
  rw [feed_of_enter henter] at hfeed
  cases habsorb : session.machine.absorb direction work data with
  | error error => simp [habsorb] at hfeed
  | ok fed =>
      simp only [habsorb, Prod.mk.injEq, Except.ok.injEq] at hfeed
      obtain ⟨_, rfl⟩ := hfeed
      refine ⟨⟨fed.2, ?_, Machine.settled_of_absorb hstreams habsorb⟩, hstreams⟩
      simp [Progress.enter]

/-- A session that could go on and has failed is poisoned. -/
theorem poisoned_feed (hready : session.Ready direction) {data : Bytes} {error : CipherError}
    {failed : Session} (hfeed : session.feed direction data = (.error error, failed)) :
    failed.progress = .poisoned := by
  obtain ⟨work, henter, _⟩ := hready
  rw [feed_of_enter henter] at hfeed
  cases habsorb : session.machine.absorb direction work data with
  | error error =>
      simp only [habsorb, Prod.mk.injEq] at hfeed
      obtain ⟨_, rfl⟩ := hfeed
      rfl
  | ok fed => simp [habsorb] at hfeed

/-- Processing nothing is ending the session. -/
theorem process_nil (hready : session.Ready direction) :
    session.process direction [] = session.finalize direction := by
  obtain ⟨work, henter, hsettled⟩ := hready
  rw [process_eq_followedBy, feed_of_enter henter, hsettled]
  simp only [followedBy, finalize_of_active]
  rw [finalize, henter]
  dsimp only
  cases session.machine.conclude direction work session.tag <;> rfl

/-! ## Runs -/

/-- One output out of several answers: all outputs one after the other, or the first failure. -/
def joined : List (Except CipherError Bytes) → Except CipherError Bytes
  | [] => .ok []
  | answer :: rest => do
      let head ← answer
      let tail ← joined rest
      return head ++ tail

/-- What is asked of a session to feed it a message in chunks and to end it. -/
def inChunks (direction : Direction) (chunks : List Bytes) : List Operation :=
  chunks.map (.feed direction) ++ [.finalize direction]

@[simp] theorem joined_error (error : CipherError) (rest : List (Except CipherError Bytes)) :
    joined (.error error :: rest) = .error error :=
  rfl

theorem joined_ok (head : Bytes) (rest : List (Except CipherError Bytes)) :
    joined (.ok head :: rest) = (joined rest).map (head ++ ·) := by
  rw [joined]
  cases joined rest <;> rfl

@[simp] theorem joined_singleton (answer : Except CipherError Bytes) :
    joined [answer] = answer := by
  cases answer with
  | error error => rfl
  | ok output => rw [joined_ok, joined, Except.map, List.append_nil]

/-- A poisoned session stays as it is, whatever it is fed. -/
theorem run_inChunks_of_poisoned (hpoisoned : session.progress = .poisoned)
    (chunks : List Bytes) : (session.run (inChunks direction chunks)).2 = session := by
  induction chunks with
  | nil => simp [inChunks, run, step, finalize, hpoisoned, Progress.enter]
  | cons chunk rest ih =>
      simpa [inChunks, run, step, feed, hpoisoned, Progress.enter] using ih

/-- A message in chunks is answered as the message in one piece. The induction is on the chunks; the
session that the first chunk leaves can go on if this one could. -/
theorem run_inChunks_of_ready (hstreams : session.machine.Streams)
    (hready : session.Ready direction) (chunks : List Bytes) :
    (joined (session.run (inChunks direction chunks)).1,
      (session.run (inChunks direction chunks)).2) = session.process direction chunks.flatten := by
  induction chunks generalizing session with
  | nil => simp [inChunks, run, step, process_nil hready]
  | cons chunk rest ih =>
      have hrun : session.run (inChunks direction (chunk :: rest)) =
          ((session.feed direction chunk).1 ::
              ((session.feed direction chunk).2.run (inChunks direction rest)).1,
            ((session.feed direction chunk).2.run (inChunks direction rest)).2) := rfl
      rw [List.flatten_cons, process_append hstreams, hrun]
      cases hfeed : session.feed direction chunk with
      | mk answer next =>
          cases answer with
          | error error =>
              simp only [followedBy, joined_error,
                run_inChunks_of_poisoned (poisoned_feed hready hfeed)]
          | ok head =>
              obtain ⟨hnext, hsame⟩ := ready_feed hstreams hready hfeed
              simp only [followedBy, ← ih hsame hnext, joined_ok]

end Session

end SealedStore

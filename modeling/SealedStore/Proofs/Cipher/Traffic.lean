import SealedStore.Proofs.Cipher.Cbc.Inverse
import SealedStore.Proofs.Cipher.Chunks
import SealedStore.Proofs.Cipher.KeyWrap.Inverse
import SealedStore.Proofs.Cipher.Lifecycle

/-!
# What has gone through a session

Since it was fresh a session has been given data and has released output, in any number of calls,
some of which it may have refused (`Session.traffic`). While it is under way, its machine makes of
all that data at once just that output, and then carries the work that the session carries; and a
poisoned session has been given data on which its machine breaks. This holds after every run, in
every mode: `Session.carries_traffic`.
-/

namespace SealedStore

open Session (Operation)

/-- The data that an operation brings. -/
def Session.Operation.data : Operation → Bytes
  | .feed _ data | .process _ data => data
  | .finalize _ | .reset | .setTag _ => []

/-- Whether an answer says that the call was not taken. -/
def isRefusal : Except CipherError Bytes → Bool
  | .ok _ => false
  | .error error => error.severity = .refusal

/-- What an answer releases. -/
def released : Except CipherError Bytes → Bytes
  | .ok output => output
  | .error _ => []

/-- The data that a session has been given since it was fresh, and the output it has released. -/
structure Traffic where
  input : Bytes
  output : Bytes

namespace Traffic

/-- Nothing has been given or released. -/
def nothing : Traffic := ⟨[], []⟩

/-- The traffic after one more operation and its answer. A reset begins anew, and a call that is not
taken counts for nothing. -/
def add (traffic : Traffic) : Operation × Except CipherError Bytes → Traffic
  | (.reset, _) => nothing
  | (operation, answer) =>
      if isRefusal answer then traffic
      else ⟨traffic.input ++ operation.data, traffic.output ++ released answer⟩

section Errors

variable (traffic : Traffic) {operation : Operation} {error : CipherError}

theorem add_refused (hreset : operation ≠ .reset) (herror : error.severity = .refusal) :
    traffic.add (operation, .error error) = traffic := by
  cases operation with
  | reset => exact absurd rfl hreset
  | _ => simp [add, isRefusal, herror]

/-- Another error than a refusal comes of the data that the call brings. -/
theorem add_failed (hreset : operation ≠ .reset) (herror : error.severity ≠ .refusal) :
    traffic.add (operation, .error error) =
      ⟨traffic.input ++ operation.data, traffic.output⟩ := by
  cases operation with
  | reset => exact absurd rfl hreset
  | _ => simp [add, isRefusal, released, herror]

end Errors

end Traffic

/-- What has gone through a fresh session after several operations. -/
def Session.traffic (session : Session) (operations : List Operation) : Traffic :=
  (session.log operations).foldl Traffic.add .nothing

/-! ## Machines -/

namespace Machine

variable {Work : Type} {machine : Machine Work} {direction : Direction} {input output data : Bytes}
  {work : Work}

/-- The machine fails for good on some data, at once or in the end. -/
def Breaks (machine : Machine Work) (input : Bytes) : Prop :=
  ∃ direction,
    (∃ error, machine.absorb direction (machine.start direction) input = .error error) ∨
    ∃ output work tag error,
      machine.absorb direction (machine.start direction) input = .ok (output, work) ∧
        machine.conclude direction work tag = .broken error

/-- A machine whose end may have to be tried again releases nothing before its end. So nothing is
lost when the rest of a message is fed and its end fails. -/
def HoldsBack (machine : Machine Work) : Prop :=
  ∀ {direction work tag error}, machine.conclude direction work tag = .retry error →
    ∀ {direction work data output next},
      machine.absorb direction work data = .ok (output, next) → output = []

/-- Data that is absorbed after other data is absorbed with it. -/
theorem absorb_more (hstreams : machine.Streams)
    (habsorbed : machine.absorb direction (machine.start direction) input = .ok (output, work))
    (data : Bytes) :
    machine.absorb direction (machine.start direction) (input ++ data) =
      (machine.absorb direction work data).map fun fed ↦ (output ++ fed.1, fed.2) := by
  rw [hstreams.absorb_append, habsorbed]
  simp only [bind, Except.bind]
  cases machine.absorb direction work data <;> rfl

end Machine

theorem Mode.holdsBack (mode : Mode) (key : Aes.Key) (iv : BitVec mode.ivBits) :
    (mode.machine key iv).HoldsBack := by
  intro direction work tag error hretry
  cases mode with
  | cbc => exact absurd hretry (Cbc.conclude_ne_retry _ _ _ _)
  | ctr => cases hretry
  | gcm =>
      intro direction work data output next habsorb
      cases habsorb
      rfl
  | keyWrap => exact absurd hretry (KeyWrap.conclude_ne_retry _ _ _ _)

/-- How far a session has come accounts for what has gone through it. -/
def Progress.Carries {Work : Type} (machine : Machine Work) (traffic : Traffic) :
    Progress Work → Prop
  | .fresh => traffic = .nothing
  | .active direction work =>
      machine.absorb direction (machine.start direction) traffic.input = .ok (traffic.output, work)
  | .finalized => True
  | .poisoned => machine.Breaks traffic.input

/-- Where a session enters the work, its machine has made it of all the data so far. -/
theorem Progress.Carries.absorb_of_enter {Work : Type} {machine : Machine Work}
    {progress : Progress Work} {traffic : Traffic} {direction : Direction} {work : Work}
    (hcarries : progress.Carries machine traffic) (hstreams : machine.Streams)
    (henter : progress.enter machine direction = .ok work) :
    machine.absorb direction (machine.start direction) traffic.input =
      .ok (traffic.output, work) := by
  cases progress with
  | fresh =>
      cases henter
      cases hcarries
      exact hstreams.absorb_start direction
  | active current held =>
      simp only [Progress.enter] at henter
      split at henter
      next hsame =>
        cases henter
        cases hsame
        exact hcarries
      next => cases henter
  | finalized => cases henter
  | poisoned => cases henter

/-! ## Sessions -/

namespace Session

variable {session : Session} {traffic : Traffic} {direction : Direction}

theorem streams (session : Session) : session.machine.Streams :=
  session.mode.streams session.key session.iv

/-- The session accounts for what has gone through it. -/
def Carries (session : Session) (traffic : Traffic) : Prop :=
  session.progress.Carries session.machine traffic

theorem Carries.feed (hcarries : session.Carries traffic) (direction : Direction) (data : Bytes) :
    (session.feed direction data).2.Carries
      (traffic.add (.feed direction data, (session.feed direction data).1)) := by
  cases henter : session.progress.enter session.machine direction with
  | error error =>
      simp only [Session.feed, henter]
      rwa [traffic.add_refused (by simp) (severity_of_enter henter)]
  | ok work =>
      have hmore := Machine.absorb_more session.streams
        (hcarries.absorb_of_enter session.streams henter) data
      rw [feed_of_enter henter]
      cases habsorb : session.machine.absorb direction work data with
      | error error =>
          rw [habsorb] at hmore
          dsimp only
          rw [traffic.add_failed (by simp) (by simp [session.reports.absorb habsorb])]
          exact ⟨direction, .inl ⟨error, hmore⟩⟩
      | ok fed =>
          rw [habsorb] at hmore
          exact hmore

/-- An end adds nothing to the data, and a session that goes on after it has lost nothing. -/
theorem Carries.finalize (hcarries : session.Carries traffic) (direction : Direction) :
    (session.finalize direction).2.Carries
      (traffic.add (.finalize direction, (session.finalize direction).1)) := by
  cases henter : session.progress.enter session.machine direction with
  | error error =>
      simp only [Session.finalize, henter]
      rwa [traffic.add_refused (by simp) (severity_of_enter henter)]
  | ok work =>
      have habsorbed := hcarries.absorb_of_enter session.streams henter
      have hreports := session.reports.conclude direction work session.tag
      simp only [Session.finalize, henter]
      cases hconclude : session.machine.conclude direction work session.tag with
      | done output tag => exact trivial
      | retry error =>
          rw [hconclude] at hreports
          dsimp only
          rw [traffic.add_failed (by simp) (by simp [show error.severity = _ from hreports]),
            Operation.data, List.append_nil]
          exact habsorbed
      | broken error =>
          rw [hconclude] at hreports
          dsimp only
          rw [traffic.add_failed (by simp) (by simp [show error.severity = _ from hreports]),
            Operation.data, List.append_nil]
          exact ⟨direction, .inr ⟨_, _, _, _, habsorbed, hconclude⟩⟩

theorem Carries.process (hcarries : session.Carries traffic) (direction : Direction)
    (data : Bytes) :
    (session.process direction data).2.Carries
      (traffic.add (.process direction data, (session.process direction data).1)) := by
  rw [process_eq_followedBy]
  cases henter : session.progress.enter session.machine direction with
  | error error =>
      simp only [Session.feed, henter, followedBy]
      rwa [traffic.add_refused (by simp) (severity_of_enter henter)]
  | ok work =>
      have hmore := Machine.absorb_more session.streams
        (hcarries.absorb_of_enter session.streams henter) data
      rw [feed_of_enter henter]
      cases habsorb : session.machine.absorb direction work data with
      | error error =>
          rw [habsorb] at hmore
          simp only [followedBy]
          rw [traffic.add_failed (by simp) (by simp [session.reports.absorb habsorb])]
          exact ⟨direction, .inl ⟨error, hmore⟩⟩
      | ok fed =>
          obtain ⟨head, next⟩ := fed
          rw [habsorb] at hmore
          have hreports := session.reports.conclude direction next session.tag
          simp only [followedBy, finalize_of_active]
          cases hconclude : session.machine.conclude direction next session.tag with
          | done output tag => exact trivial
          | retry error =>
              rw [hconclude] at hreports
              -- What was released while the data was fed is not in the answer.
              have hhead : head = [] := session.mode.holdsBack _ _ hconclude habsorb
              subst hhead
              simp only [Except.map] at hmore ⊢
              rw [traffic.add_failed (by simp) (by simp [show error.severity = _ from hreports])]
              rwa [List.append_nil] at hmore
          | broken error =>
              rw [hconclude] at hreports
              simp only [Except.map]
              rw [traffic.add_failed (by simp) (by simp [show error.severity = _ from hreports])]
              exact ⟨direction, .inr ⟨_, _, _, _, hmore, hconclude⟩⟩

theorem Carries.setTag (hcarries : session.Carries traffic) (tag : Bytes) :
    (session.setTag tag).Carries (traffic.add (.setTag tag, .ok [])) := by
  have hsame : traffic.add (.setTag tag, .ok []) = traffic := by
    simp [Traffic.add, isRefusal, Operation.data, released]
  rw [hsame, Session.setTag]
  split
  next => exact hcarries
  next => exact hcarries

/-- Every call keeps the account. -/
theorem Carries.step (hcarries : session.Carries traffic) (operation : Operation) :
    (session.step operation).2.Carries (traffic.add (operation, (session.step operation).1)) := by
  cases operation with
  | feed direction data => exact hcarries.feed direction data
  | finalize direction => exact hcarries.finalize direction
  | process direction data => exact hcarries.process direction data
  | reset => exact rfl
  | setTag tag => exact hcarries.setTag tag

/-- So does every run. -/
theorem Carries.run (hcarries : session.Carries traffic) (operations : List Operation) :
    (session.run operations).2.Carries ((session.log operations).foldl Traffic.add traffic) := by
  induction operations generalizing session traffic with
  | nil => exact hcarries
  | cons operation rest ih => exact ih (hcarries.step operation)

/-- A new session accounts for what has gone through it, whatever was done with it. -/
theorem carries_traffic {mode : Mode} {key iv tag : Bytes} {created : Session}
    (hcreate : Session.create mode key iv tag = .ok created) (operations : List Operation) :
    (created.run operations).2.Carries (created.traffic operations) := by
  obtain ⟨_, _, -, -, rfl⟩ := create_eq_ok_iff.mp hcreate
  refine Carries.run ?_ operations
  exact Eq.refl Traffic.nothing

end Session

end SealedStore

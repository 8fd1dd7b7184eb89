import SealedStore.Facility.Seeded
import SealedStore.Proofs.Client.Workload
import SealedStore.Proofs.Facility.Gate

/-!
# What goes on in a process

A process takes and gives back references to the facility, by itself or by guards, makes sessions
and key providers, and draws random bytes, in any order. Read `open_iff_references` first: the
facility is open exactly while references are held, everything that has to pass its gate is told so,
and what was made before goes on as if there were no gate. A session answers to the calls made on it
(`sessions_run`) and to nothing else that goes on.
-/

namespace SealedStore

open Facility (Event Guarded Matched references)

/-- What a process holds: the facility with its guards, and the sessions and the key providers that
it has made, in their order. -/
structure Process where
  guarded : Guarded
  sessions : List Session
  keyrings : List Keyring

/-- What a process does next. -/
inductive Deed where
  /-- The references to the facility change. -/
  | refer (event : Event)
  /-- A session for content is made, if the facility gives it. -/
  | contentSession (scheme : Scheme) (key iv tag : Bytes)
  /-- A session for wrapping keys is made, if the facility gives it. -/
  | wrapSession (key : Bytes)
  /-- A key provider is made. -/
  | keyring (keyring : Keyring)
  /-- Random bytes are drawn. -/
  | draw (count : Nat)
  /-- Random bytes for a key are drawn. -/
  | drawKey (count : Nat)
  /-- A call is made on the session with a number. -/
  | use (index : Nat) (operation : Session.Operation)
  /-- A content key is wrapped by the provider with a number. -/
  | wrap (index : Nat) (contentKey : Bytes) (description : Description)

namespace Deed

/-- What the deed does to the references, if anything. -/
def event? : Deed → Option Event
  | refer event => some event
  | _ => none

/-- The call that the deed makes on the session with a number, if any. -/
def callOn? (index : Nat) : Deed → Option Session.Operation
  | use other operation => if other = index then some operation else none
  | _ => none

end Deed

namespace Process

/-- A process in which nothing has been done yet. -/
def start (source : RandomSource) : Process :=
  ⟨⟨.closed source, 0⟩, [], []⟩

/-- The facility of the process. -/
def facility (process : Process) : Facility :=
  process.guarded.facility

/-- The process after an action on the facility. -/
def act {ε α : Type} (process : Process) (action : Action ε α) : Process :=
  { process with guarded := { process.guarded with facility := (action process.facility).2 } }

/-- The process with one session more, if there is one. -/
def keep (process : Process) : Except CipherError Session → Process
  | .ok session => { process with sessions := process.sessions ++ [session] }
  | .error _ => process

/-- The process after a deed. -/
def step (process : Process) : Deed → Process
  | .refer event => { process with guarded := process.guarded.step event }
  | .contentSession scheme key iv tag =>
      process.keep (process.facility.contentSession scheme key iv tag)
  | .wrapSession key => process.keep (process.facility.wrapSession key)
  | .keyring keyring => { process with keyrings := process.keyrings ++ [keyring] }
  | .draw count => process.act (Facility.draw count)
  | .drawKey count => process.act (Facility.drawKey count)
  | .use index operation =>
      match process.sessions[index]? with
      | none => process
      | some session =>
          { process with sessions := process.sessions.set index (session.step operation).2 }
  | .wrap index contentKey description =>
      match process.keyrings[index]? with
      | none => process
      | some keyring => process.act (keyring.provider.wrap contentKey description)

/-- The process after several deeds. -/
def run (process : Process) (deeds : List Deed) : Process :=
  deeds.foldl step process

/-- The answer of the session with a number, if the deed is a call on it. -/
def answer? (process : Process) (index : Nat) (deed : Deed) :
    Option (Except CipherError Bytes) := do
  let session ← process.sessions[index]?
  let operation ← deed.callOn? index
  return (session.step operation).1

/-- The answers of the session with a number to the calls made on it. -/
def answers (index : Nat) : Process → List Deed → List (Except CipherError Bytes)
  | _, [] => []
  | process, deed :: rest =>
      (process.answer? index deed).toList ++ answers index (process.step deed) rest

variable {process : Process} {deed : Deed} {deeds : List Deed} {index : Nat}

/-! ## References -/

/-- Whatever changes no references takes draws from the facility at most. -/
theorem guarded_step_of_event?_eq_none (process : Process) (hdeed : deed.event? = none) :
    ∃ count, (process.step deed).guarded =
      { process.guarded with facility := process.facility.afterDraws count } := by
  have hact {ε α : Type} {action : Action ε α} (haction : action.OnlyDraws) :
      ∃ count, (process.act action).guarded =
        { process.guarded with facility := process.facility.afterDraws count } := by
    obtain ⟨count, hcount⟩ := haction process.facility
    exact ⟨count, by rw [act, hcount]⟩
  have hkeep (made : Except CipherError Session) :
      (process.keep made).guarded = process.guarded := by
    cases made <;> rfl
  cases deed with
  | refer event => cases hdeed
  | contentSession => exact ⟨0, hkeep _⟩
  | wrapSession => exact ⟨0, hkeep _⟩
  | keyring => exact ⟨0, rfl⟩
  | draw count => exact hact (Action.onlyDraws_draw count)
  | drawKey count =>
      refine hact ?_
      rw [Facility.drawKey_eq_draw]
      exact Action.onlyDraws_draw count
  | use index operation =>
      rw [step]
      cases process.sessions[index]? <;> exact ⟨0, rfl⟩
  | wrap index contentKey description =>
      rw [step]
      cases process.keyrings[index]? with
      | none => exact ⟨0, rfl⟩
      | some keyring => exact hact (keyring.onlyDraws_wrap contentKey description)

/-- At every moment the facility and its guards are as the events have left them. -/
theorem counts_run (source : RandomSource)
    (hdrops : Matched .guard .drop (deeds.filterMap Deed.event?)) :
    ((start source).run deeds).guarded.Counts (deeds.filterMap Deed.event?) := by
  induction deeds using List.reverseRecOn with
  | nil => exact .closed source
  | append_singleton deeds deed ih =>
      rw [run, List.foldl_concat]
      rw [List.filterMap_append] at hdrops ⊢
      cases hdeed : deed.event? with
      | some event =>
          rw [List.filterMap_cons_some hdeed, List.filterMap_nil] at hdrops ⊢
          cases deed with
          | refer event => cases hdeed; exact (ih hdrops.of_concat).step hdrops
          | _ => cases hdeed
      | none =>
          rw [List.filterMap_cons_none hdeed, List.filterMap_nil, List.append_nil] at hdrops ⊢
          obtain ⟨count, hcount⟩ := guarded_step_of_event?_eq_none _ hdeed
          rw [hcount]
          exact (ih hdrops).act rfl

/-! ## What was made before -/

/-- A session changes by the calls made on it only. -/
theorem sessions_step {session : Session} (hsession : process.sessions[index]? = some session)
    (deed : Deed) : (process.step deed).sessions[index]? =
      some ((deed.callOn? index).elim session fun operation ↦ (session.step operation).2) := by
  have hkeep (made : Except CipherError Session) :
      (process.keep made).sessions[index]? = some session := by
    cases made with
    | error => exact hsession
    | ok other =>
        obtain ⟨hindex, -⟩ := List.getElem?_eq_some_iff.mp hsession
        exact (List.getElem?_append_left hindex).trans hsession
  cases deed with
  | refer event => exact hsession
  | contentSession => exact hkeep _
  | wrapSession => exact hkeep _
  | keyring => exact hsession
  | draw => exact hsession
  | drawKey => exact hsession
  | use other operation =>
      rw [step, Deed.callOn?]
      by_cases hother : other = index
      · subst hother
        rw [hsession, if_pos rfl]
        exact List.getElem?_set_self (List.getElem?_eq_some_iff.mp hsession).1
      · rw [if_neg hother]
        cases process.sessions[other]? with
        | none => exact hsession
        | some found => exact (List.getElem?_set_ne hother).trans hsession
  | wrap other contentKey description =>
      rw [step]
      cases process.keyrings[other]? <;> exact hsession

/-- So it answers, and is in the end, as if nothing else had been done. -/
theorem sessions_run {session : Session} (hsession : process.sessions[index]? = some session)
    (deeds : List Deed) :
    (process.run deeds).sessions[index]? =
        some (session.run (deeds.filterMap (Deed.callOn? index))).2 ∧
      process.answers index deeds = (session.run (deeds.filterMap (Deed.callOn? index))).1 := by
  induction deeds generalizing process session with
  | nil => exact ⟨hsession, rfl⟩
  | cons deed rest ih =>
      have hnext := sessions_step hsession deed
      cases hcall : deed.callOn? index with
      | none =>
          rw [hcall] at hnext
          have hanswer : process.answer? index deed = none := by
            rw [answer?, hsession, hcall]
            rfl
          rw [List.filterMap_cons_none hcall, answers, hanswer]
          exact ih hnext
      | some operation =>
          rw [hcall] at hnext
          have hanswer : process.answer? index deed = some (session.step operation).1 := by
            rw [answer?, hsession, hcall]
            rfl
          rw [List.filterMap_cons_some hcall, answers, hanswer]
          obtain ⟨hfinal, hanswers⟩ := ih hnext
          exact ⟨hfinal, congrArg (_ :: ·) hanswers⟩

/-- A provider does not change at all. -/
theorem keyrings_run {keyring : Keyring} (hkeyring : process.keyrings[index]? = some keyring)
    (deeds : List Deed) : (process.run deeds).keyrings[index]? = some keyring := by
  have hstep {process : Process} (hkeyring : process.keyrings[index]? = some keyring)
      (deed : Deed) : (process.step deed).keyrings[index]? = some keyring := by
    cases deed with
    | keyring other =>
        obtain ⟨hindex, -⟩ := List.getElem?_eq_some_iff.mp hkeyring
        exact (List.getElem?_append_left hindex).trans hkeyring
    | contentSession scheme key iv tag =>
        rw [step]
        cases process.facility.contentSession scheme key iv tag <;> exact hkeyring
    | wrapSession key =>
        rw [step]
        cases process.facility.wrapSession key <;> exact hkeyring
    | use other operation =>
        rw [step]
        cases process.sessions[other]? <;> exact hkeyring
    | wrap other contentKey description =>
        rw [step]
        cases process.keyrings[other]? <;> exact hkeyring
    | _ => exact hkeyring
  induction deeds generalizing process with
  | nil => exact hkeyring
  | cons deed rest ih => exact ih (hstep hkeyring deed)

/-! ## The gate at every moment -/

/-- What is reached by any deeds, in which each guard is made once and dropped once at most.

* The facility is open exactly while references are held.
* Whoever asks for a session or for random bytes is told that it is closed exactly while there are
  none, whatever the arguments.
* A session that was made is, after any further deeds, what the calls on it have made of it, and has
  answered as these alone; a provider that was made is the same.
* If at every moment there have been no more releases than acquisitions, then the facility is open
  while a guard is alive. -/
theorem open_iff_references {source : RandomSource}
    (hprocess : (start source).run deeds = process) {events : List Event}
    (hevents : deeds.filterMap Deed.event? = events) (hdrops : Matched .guard .drop events) :
    (process.facility.isOpen ↔ 0 < references events) ∧
    ((∀ scheme key iv tag, process.facility.contentSession scheme key iv tag =
        .error .facilityClosed ↔ references events = 0) ∧
      (∀ key, process.facility.wrapSession key = .error .facilityClosed ↔
        references events = 0) ∧
      (∀ count, (Facility.draw count process.facility).1 = .error .facilityClosed ↔
        references events = 0) ∧
      ∀ count, (Facility.drawKey count process.facility).1 = .error .facilityClosed ↔
        references events = 0) ∧
    ((∀ (index : Nat) session, process.sessions[index]? = some session → ∀ more : List Deed,
        (process.run more).sessions[index]? =
            some (session.run (more.filterMap (Deed.callOn? index))).2 ∧
          process.answers index more =
            (session.run (more.filterMap (Deed.callOn? index))).1) ∧
      ∀ (index : Nat) keyring, process.keyrings[index]? = some keyring → ∀ more : List Deed,
        (process.run more).keyrings[index]? = some keyring) ∧
    (Matched .acquire .release events → events.count .drop < events.count .guard →
      process.facility.isOpen) := by
  subst hprocess hevents
  have hcounts := counts_run source hdrops
  have hopen : ((start source).run deeds).facility.isOpen ↔
      0 < references (deeds.filterMap Deed.event?) := by
    rw [← hcounts.holders_eq, Facility.isOpen, decide_eq_true_eq]
    rfl
  have hclosed : ((start source).run deeds).facility.isOpen = false ↔
      references (deeds.filterMap Deed.event?) = 0 := by
    rw [← Bool.not_eq_true, hopen, Nat.pos_iff_ne_zero, not_not]
  refine ⟨hopen, ⟨?_, ?_, ?_, ?_⟩, ⟨?_, ?_⟩, ?_⟩
  · intro scheme key iv tag
    rw [Facility.contentSession_eq_closed_iff, hclosed]
  · intro key
    rw [Facility.wrapSession_eq_closed_iff, hclosed]
  · intro count
    rw [Facility.draw_eq_closed_iff, hclosed]
  · intro count
    rw [Facility.drawKey_eq_draw, Facility.draw_eq_closed_iff, hclosed]
  · exact fun index session hsession more ↦ sessions_run hsession more
  · exact fun index keyring hkeyring more ↦ keyrings_run hkeyring more
  · intro hreleases halive
    have haccount := Facility.references_add hdrops hreleases
    have hreleased := hreleases.count_le
    exact hopen.mpr (by omega)

/-- All references are given back, and one release is too many. The facility is closed to a draw for
a key, and the session that was made under a guard still answers. -/
theorem open_iff_references_closed :
    ∃ process session,
      (start (.ofSeed 0)).run [.refer .acquire, .refer .guard,
        .contentSession .ctr (Bytes.zeros 32) (Bytes.zeros 16) [], .refer .drop,
        .refer .release] = process ∧
      process.sessions[0]? = some session ∧
      (Facility.drawKey 32 process.facility).1 = .error .facilityClosed ∧
      process.answers 0 [.refer .release, .use 0 (.feed .encrypt [1])] =
        (session.run [.feed .encrypt [1]]).1 := by
  have hrun : (start (.ofSeed 0)).run [.refer .acquire, .refer .guard,
        .contentSession .ctr (Bytes.zeros 32) (Bytes.zeros 16) [], .refer .drop,
        .refer .release] =
      ⟨⟨.closed (.ofSeed 0), 0⟩, [⟨.ctr, 0, 0, [], .fresh⟩], []⟩ := rfl
  obtain ⟨-, ⟨-, -, -, hdrawKey⟩, ⟨hsessions, -⟩, -⟩ :=
    open_iff_references hrun (show _ = [.acquire, .guard, .drop, .release] from rfl) (by decide)
  exact ⟨_, _, hrun, rfl, (hdrawKey 32).mpr rfl, (hsessions 0 _ rfl _).2⟩

end Process

end SealedStore

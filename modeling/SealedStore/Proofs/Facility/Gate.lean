import Mathlib.Data.List.Induction
import Mathlib.Data.List.Infix
import SealedStore.Proofs.Facility

/-!
# The facility and its references

Nothing that needs the facility gets past its gate while nobody holds it, whatever the arguments
(`contentSession_eq_closed_iff`, `wrapSession_eq_closed_iff`, `draw_eq_closed_iff`), and a lock
inside a lock is no second gate (`drawKey_eq_draw`). The holders are counted by `references`, which
knows no guards: `Guarded.Counts` says that facility and guards follow the events, and
`references_add` that no reference is lost if none is given back that was not taken.
-/

namespace SealedStore.Facility

variable {facility : Facility}

/-! ## The gate -/

/-- Where only lengths are checked, nobody is told that the facility is closed. -/
theorem create_ne_closed (mode : Mode) (key iv tag : Bytes) :
    Session.create mode key iv tag ≠ .error .facilityClosed := by
  unfold Session.create
  split
  next => simp
  next =>
    split
    next => simp
    next => simp

theorem contentSession_eq_closed_iff (scheme : Scheme) (key iv tag : Bytes) :
    facility.contentSession scheme key iv tag = .error .facilityClosed ↔
      facility.isOpen = false := by
  unfold contentSession
  cases facility.isOpen with
  | false => simp
  | true => simpa using create_ne_closed scheme.mode key iv tag

theorem wrapSession_eq_closed_iff (key : Bytes) :
    facility.wrapSession key = .error .facilityClosed ↔ facility.isOpen = false := by
  unfold wrapSession
  cases facility.isOpen with
  | false => simp
  | true => simpa using create_ne_closed .keyWrap key [] []

theorem draw_eq_closed_iff (count : Nat) :
    (draw count facility).1 = .error .facilityClosed ↔ facility.isOpen = false := by
  unfold draw
  cases facility.isOpen <;> simp

/-- An action under a lock of the facility. There are locks only while it is open. -/
def underLock {α : Type} (action : Action CipherError α) : Action CipherError α :=
  fun facility ↦
    if facility.isOpen then action facility else (.error .facilityClosed, facility)

/-- So many random bytes for a key: a draw, which has a lock of its own, under another lock. -/
def drawKey (count : Nat) : Action CipherError Bytes :=
  underLock (draw count)

/-- The outer lock is there whenever the inner one is. -/
theorem drawKey_eq_draw (count : Nat) : drawKey count = draw count := by
  funext facility
  unfold drawKey underLock draw
  split <;> rfl

/-! ## References -/

/-- The references after an event, `held` of them before it. -/
def Event.change (held : Nat) : Event → Nat
  | .acquire | .guard => held + 1
  | .release | .drop => held - 1

/-- The references after several events, of which there are none at the beginning. -/
def references (events : List Event) : Nat :=
  events.foldl Event.change 0

/-- At every moment there have been no more events of the closing kind than of the opening one. -/
def Matched (opening closing : Event) (events : List Event) : Prop :=
  ∀ before, before <+: events → before.count closing ≤ before.count opening

instance (opening closing : Event) (events : List Event) :
    Decidable (Matched opening closing events) :=
  decidable_of_iff (∀ before ∈ events.inits, before.count closing ≤ before.count opening)
    (by simp only [List.mem_inits]; rfl)

variable {events : List Event} {event opening closing : Event}

theorem references_concat (events : List Event) (event : Event) :
    references (events ++ [event]) = event.change (references events) := by
  rw [references, List.foldl_append]
  rfl

theorem count_concat (events : List Event) (event other : Event) :
    (events ++ [event]).count other = events.count other + if event = other then 1 else 0 := by
  simp [List.count_append, List.count_singleton]

theorem Matched.count_le (hmatched : Matched opening closing events) :
    events.count closing ≤ events.count opening :=
  hmatched events List.prefix_rfl

/-- What holds at every moment held before the last event. -/
theorem Matched.of_concat (hmatched : Matched opening closing (events ++ [event])) :
    Matched opening closing events :=
  fun before hbefore ↦ hmatched before (hbefore.trans (List.prefix_append events [event]))

/-- While guards are dropped once and releases answer acquisitions, every reference is accounted
for. -/
theorem references_add (hdrops : Matched .guard .drop events)
    (hreleases : Matched .acquire .release events) :
    references events + events.count .release + events.count .drop =
      events.count .acquire + events.count .guard := by
  induction events using List.reverseRecOn with
  | nil => rfl
  | append_singleton events event ih =>
      have hbefore := ih hdrops.of_concat hreleases.of_concat
      have hdrop := hdrops.count_le
      have hrelease := hreleases.count_le
      rw [references_concat]
      cases event <;>
        simp only [count_concat, reduceCtorEq, ↓reduceIte, Event.change] at * <;> omega

/-! ## Guards -/

/-- The facility and its guards are as the events have left them. -/
structure Guarded.Counts (guarded : Guarded) (events : List Event) : Prop where
  holders_eq : guarded.facility.holders = references events
  guards_add : guarded.guards + events.count .drop = events.count .guard

namespace Guarded.Counts

variable {guarded : Guarded}

/-- To begin with nobody holds the facility. -/
theorem closed (source : RandomSource) : Counts ⟨.closed source, 0⟩ [] where
  holders_eq := rfl
  guards_add := rfl

/-- Draws are none of the events. -/
theorem act {next : Facility} {count : Nat} (hcounts : guarded.Counts events)
    (hnext : next = guarded.facility.afterDraws count) :
    Counts { guarded with facility := next } events := by
  subst hnext
  exact ⟨hcounts.holders_eq, hcounts.guards_add⟩

theorem step (hcounts : guarded.Counts events) (hdrops : Matched .guard .drop (events ++ [event])) :
    (guarded.step event).Counts (events ++ [event]) := by
  obtain ⟨hholders, hguards⟩ := hcounts
  cases event with
  | acquire | release | guard =>
      refine ⟨?_, ?_⟩
      · rw [references_concat, ← hholders]
        rfl
      · simp only [count_concat, reduceCtorEq, ↓reduceIte, Guarded.step]
        omega
  | drop =>
      -- The guard that is dropped is alive.
      have halive := hdrops.count_le
      simp only [count_concat, reduceCtorEq, ↓reduceIte] at halive
      have hstep : guarded.step .drop = ⟨guarded.facility.release, guarded.guards - 1⟩ :=
        if_pos (by omega)
      rw [hstep]
      refine ⟨?_, ?_⟩
      · rw [references_concat, ← hholders]
        rfl
      · simp only [count_concat, reduceCtorEq, ↓reduceIte]
        omega

end Guarded.Counts

end SealedStore.Facility

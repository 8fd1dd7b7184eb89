import SealedStore.Proofs.Facility.Gate

/-!
# What a guard is worth

The references to the facility have no owners: a release that answers no acquisition of its own
takes away the reference of a guard, and `run_guard_release` shows a facility that is closed although
a guard is alive. It is open while a guard is alive as long as no such release comes
(`open_while_guarded`): then the holders are the guards and the outstanding acquisitions
(`Guarded.Accounts`).
-/

namespace SealedStore.Facility

variable {events : List Event} {event : Event} {guarded : Guarded} {source : RandomSource}

/-- The acquisitions outstanding after an event. A release answers one of them, if there is any. -/
def Event.settle (outstanding : Nat) : Event → Nat
  | .acquire => outstanding + 1
  | .release => outstanding - 1
  | .guard | .drop => outstanding

/-- The acquisitions outstanding after several events. -/
def outstanding (events : List Event) : Nat :=
  events.foldl Event.settle 0

theorem outstanding_concat (events : List Event) (event : Event) :
    outstanding (events ++ [event]) = event.settle (outstanding events) := by
  rw [outstanding, List.foldl_append]
  rfl

namespace Guarded

/-- A facility that nobody holds yet, without guards. -/
def idle (source : RandomSource) : Guarded :=
  ⟨.closed source, 0⟩

theorem run_concat (guarded : Guarded) (events : List Event) (event : Event) :
    guarded.run (events ++ [event]) = (guarded.run events).step event :=
  List.foldl_concat step guarded event events

/-- No release comes while guards are alive and no acquisition is outstanding. -/
def Spares (source : RandomSource) (events : List Event) : Prop :=
  ∀ before, before ++ [.release] <+: events → outstanding before = 0 →
    ((idle source).run before).guards = 0

instance (source : RandomSource) (events : List Event) : Decidable (Spares source events) :=
  decidable_of_iff
    (∀ before ∈ events.inits, before ++ [.release] <+: events → outstanding before = 0 →
      ((idle source).run before).guards = 0)
    ⟨fun hspares before hbefore ↦ hspares before
        ((List.mem_inits _ _).mpr ((List.prefix_append before [.release]).trans hbefore)) hbefore,
      fun hspares before _ ↦ hspares before⟩

theorem Spares.of_concat (hspares : Spares source (events ++ [event])) : Spares source events :=
  fun before hbefore ↦ hspares before (hbefore.trans (List.prefix_append events [event]))

/-- The holders of the facility are the guards and the outstanding acquisitions. -/
def Accounts (guarded : Guarded) (events : List Event) : Prop :=
  guarded.facility.holders = outstanding events + guarded.guards

/-- The account stays right unless a release hits a guard. -/
theorem Accounts.step (haccounts : guarded.Accounts events)
    (hspared : event = .release → outstanding events = 0 → guarded.guards = 0) :
    (guarded.step event).Accounts (events ++ [event]) := by
  unfold Accounts at haccounts ⊢
  rw [outstanding_concat]
  cases event with
  | acquire =>
      simp only [Guarded.step, acquire, Event.settle]
      omega
  | release =>
      have hnone := hspared rfl
      simp only [Guarded.step, release, Event.settle]
      omega
  | guard =>
      simp only [Guarded.step, acquire, Event.settle]
      omega
  | drop =>
      simp only [Guarded.step, Event.settle]
      split
      next halive =>
        simp only [release]
        omega
      next => exact haccounts

theorem accounts_run (hspares : Spares source events) :
    ((idle source).run events).Accounts events := by
  induction events using List.reverseRecOn with
  | nil => rfl
  | append_singleton events event ih =>
      rw [run_concat]
      refine (ih hspares.of_concat).step fun hrelease hnone ↦ ?_
      subst hrelease
      exact hspares events List.prefix_rfl hnone

end Guarded

/-- Whatever has happened to a facility that nobody held, if no release came while guards were alive
and no acquisition was outstanding:

* While a guard is alive the facility is open, and nobody who asks for a session or for random bytes
  is told that it is closed.
* This is as far as it goes. A release that comes while there is one guard and no acquisition closes
  the facility, and the guard is still alive. -/
theorem open_while_guarded (hrun : (Guarded.idle source).run events = guarded)
    (hspares : Guarded.Spares source events) :
    (0 < guarded.guards →
      guarded.facility.isOpen ∧
      (∀ scheme key iv tag,
        guarded.facility.contentSession scheme key iv tag ≠ .error .facilityClosed) ∧
      (∀ key, guarded.facility.wrapSession key ≠ .error .facilityClosed) ∧
      (∀ count, (draw count guarded.facility).1 ≠ .error .facilityClosed) ∧
      ∀ count, (drawKey count guarded.facility).1 ≠ .error .facilityClosed) ∧
    (guarded.guards = 1 → outstanding events = 0 →
      (guarded.step .release).facility.isOpen = false ∧ (guarded.step .release).guards = 1) := by
  subst hrun
  have haccounts := Guarded.accounts_run hspares
  unfold Guarded.Accounts at haccounts
  refine ⟨fun halive ↦ ?_, fun hguard hnone ↦ ⟨?_, hguard⟩⟩
  · have hopen : ((Guarded.idle source).run events).facility.isOpen :=
      decide_eq_true (by omega)
    refine ⟨hopen, ?_, ?_, ?_, ?_⟩
    · intro scheme key iv tag
      rwa [Ne, contentSession_eq_closed_iff, Bool.not_eq_false]
    · intro key
      rwa [Ne, wrapSession_eq_closed_iff, Bool.not_eq_false]
    · intro count
      rwa [Ne, draw_eq_closed_iff, Bool.not_eq_false]
    · intro count
      rwa [Ne, drawKey_eq_draw, draw_eq_closed_iff, Bool.not_eq_false]
  · have hholders : (((Guarded.idle source).run events).step .release).facility.holders = 0 := by
      simp only [Guarded.step, release]
      omega
    rw [isOpen, hholders]
    rfl

/-- A release without an acquisition is harmless before there is a guard, and one that answers an
acquisition is harmless beside it. The next one closes the facility. -/
theorem open_while_guarded_once :
    ∃ guarded,
      (Guarded.idle (.ofSeed 0)).run [.release, .guard, .acquire, .release] = guarded ∧
      Guarded.Spares (.ofSeed 0) [.release, .guard, .acquire, .release] ∧
      0 < guarded.guards ∧ guarded.facility.isOpen ∧
      (guarded.step .release).facility.isOpen = false ∧ (guarded.step .release).guards = 1 := by
  obtain ⟨hopen, hcloses⟩ := open_while_guarded
    (show (Guarded.idle (.ofSeed 0)).run [.release, .guard, .acquire, .release] = _ from rfl)
    (by decide)
  exact ⟨_, rfl, by decide, by decide, (hopen (by decide)).1, hcloses rfl rfl⟩

/-- A guard is alive, and the facility is closed. -/
theorem run_guard_release :
    ∃ guarded, (Guarded.idle (.ofSeed 0)).run [.guard, .release] = guarded ∧
      guarded.guards = 1 ∧ guarded.facility.isOpen = false ∧
      (drawKey 32 guarded.facility).1 = .error .facilityClosed :=
  ⟨_, rfl, rfl, rfl, rfl⟩

end SealedStore.Facility

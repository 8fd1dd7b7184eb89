import SealedStore.Envelope.Algorithm

/-!
# The cryptographic facility

Ciphers can be made and random bytes drawn only while someone holds the facility open. It counts its
holders, and the draws it has given out: every draw comes from a place of the random source that no
other draw comes from. Sessions made earlier do not depend on the facility any more.
-/

namespace SealedStore

/-- An endless supply of random draws of any length. -/
structure RandomSource where
  /-- The bytes of the draw with a number, for each length. -/
  bytes : (draw count : Nat) → Bytes
  length_bytes : ∀ draw count, (bytes draw count).length = count

/-- The holders of the facility, and how many draws it has given out from its source. -/
structure Facility where
  source : RandomSource
  holders : Nat
  drawn : Nat

/-- Something done with the facility, which may fail; draws taken before a failure stay taken. -/
abbrev Action (ε : Type) := ExceptT ε (StateM Facility)

/-- The same action with its failures renamed. -/
def Action.mapError {ε ε' α : Type} (rename : ε → ε') (action : Action ε α) : Action ε' α :=
  fun facility ↦
    let (result, next) := action facility
    (result.mapError rename, next)

namespace Facility

/-- A facility that nobody holds yet. -/
def closed (source : RandomSource) : Facility := ⟨source, 0, 0⟩

/-- Whether someone holds the facility open. -/
def isOpen (facility : Facility) : Bool :=
  0 < facility.holders

/-- The facility with one holder more. -/
def acquire (facility : Facility) : Facility :=
  { facility with holders := facility.holders + 1 }

/-- The facility with one holder less. Without a holder nothing happens. -/
def release (facility : Facility) : Facility :=
  { facility with holders := facility.holders - 1 }

/-- A fresh session for content. A tag counts for an authenticated scheme only. -/
def contentSession (facility : Facility) (scheme : Scheme) (key iv tag : Bytes) :
    Except CipherError Session :=
  if facility.isOpen then Session.create scheme.mode key iv tag else .error .facilityClosed

/-- A fresh session for wrapping keys. -/
def wrapSession (facility : Facility) (key : Bytes) : Except CipherError Session :=
  if facility.isOpen then Session.create .keyWrap key [] [] else .error .facilityClosed

/-- So many fresh random bytes. -/
def draw (count : Nat) : Action CipherError Bytes := fun facility ↦
  if facility.isOpen then
    (.ok (facility.source.bytes facility.drawn count),
      { facility with drawn := facility.drawn + 1 })
  else (.error .facilityClosed, facility)

/-! ## Guards -/

/-- The facility together with the number of guards alive, each of which holds it. -/
structure Guarded where
  facility : Facility
  guards : Nat

/-- What can happen to the facility from outside. -/
inductive Event where
  | acquire
  | release
  /-- A guard is made; it holds the facility. -/
  | guard
  /-- A guard is dropped, if there is one; it lets go of the facility. -/
  | drop
  deriving DecidableEq, Repr

/-- The facility and its guards after an event. -/
def Guarded.step (guarded : Guarded) : Event → Guarded
  | .acquire => { guarded with facility := guarded.facility.acquire }
  | .release => { guarded with facility := guarded.facility.release }
  | .guard => ⟨guarded.facility.acquire, guarded.guards + 1⟩
  | .drop =>
      if 0 < guarded.guards then ⟨guarded.facility.release, guarded.guards - 1⟩ else guarded

/-- The facility and its guards after several events. -/
def Guarded.run (guarded : Guarded) (events : List Event) : Guarded :=
  events.foldl step guarded

end Facility

end SealedStore

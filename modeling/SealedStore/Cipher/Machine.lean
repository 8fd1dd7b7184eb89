import SealedStore.Bytes
import SealedStore.Cipher.Error

/-!
# Machines behind a session

A cipher shows itself to a session as a machine: what it carries when work starts in a direction,
what it releases for the data it is fed, and how it ends. Everything about the order of calls is the
session's business and the same for all machines.
-/

namespace SealedStore

/-- How work ends. -/
inductive Conclusion where
  /-- The last output, and the tag of the session from now on. -/
  | done (output tag : Bytes)
  /-- A mistake of the caller: nothing is lost and the end may be tried again. -/
  | retry (error : CipherError)
  /-- A failure for good. -/
  | broken (error : CipherError)

/-- A cipher under a fixed key and IV. -/
structure Machine (Work : Type) where
  /-- What is carried before any data. -/
  start : Direction → Work
  /-- The output released for some data, and what is carried on. -/
  absorb : Direction → Work → Bytes → Except CipherError (Bytes × Work)
  /-- The end of the work, given the tag that the session holds. -/
  conclude : Direction → Work → Bytes → Conclusion

/-- How far a session has come, and what its machine carries while it is under way. -/
inductive Progress (Work : Type) where
  | fresh
  | active (direction : Direction) (work : Work)
  | finalized
  | poisoned

namespace Progress

variable {Work : Type}

/-- The state to show for the progress. -/
def state : Progress Work → SessionState
  | .fresh => .fresh
  | .active direction _ => direction.state
  | .finalized => .finalized
  | .poisoned => .poisoned

/-- The work to go on with in a direction: a fresh session starts, one that is under way in that
direction goes on, and any other refuses. -/
def enter (machine : Machine Work) (direction : Direction) :
    Progress Work → Except CipherError Work
  | .fresh => .ok (machine.start direction)
  | .active current work =>
      if current = direction then .ok work else .error (.invalidState direction current.state)
  | .finalized => .error (.invalidState direction .finalized)
  | .poisoned => .error .poisoned

end Progress

end SealedStore

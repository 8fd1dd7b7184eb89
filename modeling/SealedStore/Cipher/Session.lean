import SealedStore.Aes.Cipher
import SealedStore.Cipher.Cbc
import SealedStore.Cipher.Ctr
import SealedStore.Cipher.Gcm
import SealedStore.Cipher.KeyWrap

/-!
# Cipher sessions

A session turns one message under one key and IV. It is fed in pieces and then finalized, always in
the direction in which it began; after a failure of the cipher it answers nothing until it is reset.
Resetting gives back the fresh session without a tag.
-/

namespace SealedStore

/-- The modes in which AES is used. -/
inductive Mode where
  | cbc
  | ctr
  | gcm
  | keyWrap
  deriving DecidableEq, Repr

namespace Mode

/-- The name of the mode. -/
def name : Mode → String
  | cbc => "AES_CBC"
  | ctr => "AES_CTR"
  | gcm => "AES_GCM"
  | keyWrap => "AES_KeyWrap"

/-- The width of the IV. Key wrapping has none. -/
def ivBits : Mode → Nat
  | cbc => 128
  | ctr => 128
  | gcm => 96
  | keyWrap => 0

/-- The length of the IV in bytes. -/
def ivLength (mode : Mode) : Nat := mode.ivBits / 8

/-- The unit of the mode in bytes. -/
def unitLength : Mode → Nat
  | keyWrap => semiblockLength
  | _ => blockLength

/-- Whether the mode has a tag. -/
def authenticated (mode : Mode) : Bool := mode = gcm

/-- What the machine of the mode carries. -/
def Work : Mode → Type
  | cbc => Cbc.Work
  | ctr => Nat
  | gcm => Bytes
  | keyWrap => Bytes

/-- The machine of the mode under a key and an IV. -/
def machine : (mode : Mode) → Aes.Key → BitVec mode.ivBits → Machine mode.Work
  | cbc, key, iv => Cbc.machine (Aes.cipher key) iv
  | ctr, key, iv => Ctr.machine (Aes.cipher key) iv
  | gcm, key, iv => Gcm.machine (Aes.cipher key) iv
  | keyWrap, key, _ => KeyWrap.machine (Aes.cipher key)

end Mode

/-- A session: what it was made with, the tag it holds, and how far it has come. -/
structure Session where
  mode : Mode
  key : Aes.Key
  iv : BitVec mode.ivBits
  tag : Bytes
  progress : Progress mode.Work

namespace Session

/-- A fresh session. The key is checked before the IV. -/
def create (mode : Mode) (key iv tag : Bytes) : Except CipherError Session :=
  match key.toBits? 256 with
  | none => .error (.wrongLength .key Aes.keyLength key.length)
  | some typedKey =>
      match iv.toBits? mode.ivBits with
      | none => .error (.wrongLength .iv mode.ivLength iv.length)
      | some typedIv =>
          .ok ⟨mode, typedKey, typedIv, if mode.authenticated then tag else [], .fresh⟩

/-- The state to show for the session. -/
def state (session : Session) : SessionState :=
  session.progress.state

/-- The tag of the session, unless it holds none. -/
def tag? (session : Session) : Option Bytes :=
  if session.tag.isEmpty then none else some session.tag

/-- The machine behind the session. -/
def machine (session : Session) : Machine session.mode.Work :=
  session.mode.machine session.key session.iv

/-- Feed data; the answer is the output available so far. -/
def feed (direction : Direction) (data : Bytes) (session : Session) :
    Except CipherError Bytes × Session :=
  match session.progress.enter session.machine direction with
  | .error error => (.error error, session)
  | .ok work =>
      match session.machine.absorb direction work data with
      | .error error => (.error error, { session with progress := .poisoned })
      | .ok (output, next) => (.ok output, { session with progress := .active direction next })

/-- End the session; the answer is the rest of the output. -/
def finalize (direction : Direction) (session : Session) : Except CipherError Bytes × Session :=
  match session.progress.enter session.machine direction with
  | .error error => (.error error, session)
  | .ok work =>
      match session.machine.conclude direction work session.tag with
      | .done output tag => (.ok output, { session with tag := tag, progress := .finalized })
      | .retry error => (.error error, { session with progress := .active direction work })
      | .broken error => (.error error, { session with progress := .poisoned })

/-- Feed the rest of a message and end the session; the answer is all output from here on. -/
def process (direction : Direction) (data : Bytes) (session : Session) :
    Except CipherError Bytes × Session :=
  match session.feed direction data with
  | (.error error, fed) => (.error error, fed)
  | (.ok head, fed) =>
      match fed.finalize direction with
      | (.error error, ended) => (.error error, ended)
      | (.ok tail, ended) => (.ok (head ++ tail), ended)

/-- Back to the fresh session, without a tag. -/
def reset (session : Session) : Session :=
  { session with tag := [], progress := .fresh }

/-- Give the session a tag to check against. Only an authenticated mode takes one. -/
def setTag (tag : Bytes) (session : Session) : Session :=
  if session.mode.authenticated then { session with tag := tag } else session

/-- What can be asked of a session. -/
inductive Operation where
  | feed (direction : Direction) (data : Bytes)
  | finalize (direction : Direction)
  | process (direction : Direction) (data : Bytes)
  | reset
  | setTag (tag : Bytes)

/-- The answer to one operation and the session after it. -/
def step (session : Session) : Operation → Except CipherError Bytes × Session
  | .feed direction data => session.feed direction data
  | .finalize direction => session.finalize direction
  | .process direction data => session.process direction data
  | .reset => (.ok [], session.reset)
  | .setTag tag => (.ok [], session.setTag tag)

/-- The answers to several operations, one after the other, and the session after them. -/
def run (session : Session) : List Operation → List (Except CipherError Bytes) × Session
  | [] => ([], session)
  | operation :: rest =>
      let (answer, next) := session.step operation
      let (answers, final) := next.run rest
      (answer :: answers, final)

end Session

end SealedStore

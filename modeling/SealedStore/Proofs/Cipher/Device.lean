import SealedStore.Proofs.Cipher.Effect
import SealedStore.Proofs.Cipher.Registers
import SealedStore.Proofs.Facility

/-!
# Devices

A device does with registers what a session does with the work of its machine: it keeps a state, a
tag and the registers of its mode, whatever its state is. Device and session stay in step
(`Shows.step`), so what can be seen of them is the same over every run: `Session.trace_device`.
-/

namespace SealedStore

/-- Whether a call in a direction begins the work, unless the state refuses it. -/
def SessionState.begin (direction : Direction) (state : SessionState) : Except CipherError Bool :=
  match state with
  | .fresh => .ok true
  | .poisoned => .error .poisoned
  | current =>
      if current = direction.state then .ok false else .error (.invalidState direction current)

/-- A device: what it was made with, the tag it holds, its state, and its registers. -/
structure Device where
  mode : Mode
  key : Aes.Key
  iv : BitVec mode.ivBits
  tag : Bytes
  state : SessionState
  registers : mode.Registers

namespace Device

/-- The tag of the device, unless it holds none. -/
def tag? (device : Device) : Option Bytes :=
  if device.tag.isEmpty then none else some device.tag

/-- The circuit of the device. -/
def circuit (device : Device) : Circuit device.mode.Registers :=
  device.mode.circuit device.key device.iv

/-- Feed data; the answer is the output available so far. -/
def feed (direction : Direction) (data : Bytes) (device : Device) :
    Except CipherError Bytes × Device :=
  match device.state.begin direction with
  | .error error => (.error error, device)
  | .ok beginning =>
      match device.circuit.absorb direction beginning data device.registers with
      | (.released output, registers) =>
          (.ok output, { device with state := direction.state, registers })
      | (.refused error, registers) =>
          (.error error, { device with state := direction.state, registers })
      | (.broken error, registers) => (.error error, { device with state := .poisoned, registers })

/-- End the work; the answer is the rest of the output. -/
def finalize (direction : Direction) (device : Device) : Except CipherError Bytes × Device :=
  match device.state.begin direction with
  | .error error => (.error error, device)
  | .ok beginning =>
      match device.circuit.conclude direction beginning device.tag device.registers with
      | (.done output tag, registers) =>
          (.ok output, { device with tag, state := .finalized, registers })
      | (.retry error, registers) =>
          (.error error, { device with state := direction.state, registers })
      | (.broken error, registers) => (.error error, { device with state := .poisoned, registers })

/-- Feed the rest of a message and end the work; the answer is all output from here on. -/
def process (direction : Direction) (data : Bytes) (device : Device) :
    Except CipherError Bytes × Device :=
  match device.feed direction data with
  | (.error error, fed) => (.error error, fed)
  | (.ok head, fed) =>
      match fed.finalize direction with
      | (.error error, ended) => (.error error, ended)
      | (.ok tail, ended) => (.ok (head ++ tail), ended)

/-- Clear the registers and go back to the first state. Only an authenticated mode drops the tag:
the others never hold one. -/
def reset (device : Device) : Device :=
  { device with
    tag := if device.mode.authenticated then [] else device.tag
    state := .fresh
    registers := device.circuit.clear device.registers }

/-- Give the device a tag to check against. Only an authenticated mode takes one. -/
def setTag (tag : Bytes) (device : Device) : Device :=
  if device.mode.authenticated then { device with tag } else device

/-- The answer to one operation and the device after it. -/
def step (device : Device) : Session.Operation → Except CipherError Bytes × Device
  | .feed direction data => device.feed direction data
  | .finalize direction => device.finalize direction
  | .process direction data => device.process direction data
  | .reset => (.ok [], device.reset)
  | .setTag tag => (.ok [], device.setTag tag)

/-- The device after several operations. -/
def after (device : Device) (operations : List Session.Operation) : Device :=
  operations.foldl (fun device operation ↦ (device.step operation).2) device

/-- What can be seen of the device over several operations: to each the answer, and then the state
and the tag. -/
def trace (device : Device) :
    List Session.Operation → List (Except CipherError Bytes × SessionState × Option Bytes)
  | [] => []
  | operation :: rest =>
      let (answer, next) := device.step operation
      (answer, next.state, next.tag?) :: next.trace rest

end Device

namespace Session

/-- The device that a fresh session stands for: its registers are blank. -/
def device (session : Session) : Device :=
  ⟨session.mode, session.key, session.iv, session.tag, .fresh,
    (session.mode.circuit session.key session.iv).blank⟩

/-- What can be seen of a session over several operations. -/
def trace (session : Session) :
    List Operation → List (Except CipherError Bytes × SessionState × Option Bytes)
  | [] => []
  | operation :: rest =>
      let (answer, next) := session.step operation
      (answer, next.state, next.tag?) :: next.trace rest

end Session

/-! ## In step -/

/-- What the registers hold at each stage of a session. -/
def Layout.Holds {Work Registers : Type} (layout : Layout Work Registers) (blank : Registers) :
    Progress Work → Registers → Prop
  | .fresh, registers => registers = blank
  | .active direction work, registers => registers = layout.holding direction work
  | .finalized, registers => layout.Ended registers
  | .poisoned, registers => layout.Failed registers

section Begin

variable {Work Registers : Type} {machine : Machine Work} {circuit : Circuit Registers}
  {layout : Layout Work Registers} {direction : Direction} {progress : Progress Work}

/-- A state refuses what the progress refuses. -/
theorem SessionState.begin_eq_error {error : CipherError}
    (henter : progress.enter machine direction = .error error) :
    progress.state.begin direction = .error error := by
  cases progress with
  | fresh => cases henter
  | active current work =>
      cases current <;> cases direction <;> cases henter <;> rfl
  | finalized => cases direction <;> cases henter <;> rfl
  | poisoned => cases henter; rfl

/-- Where a session enters the work, the state lets the call begin, and the call makes of the
registers what it makes of the work. -/
theorem Circuit.Simulates.begin_eq_ok (hsimulates : circuit.Simulates machine layout)
    {registers : Registers} {work : Work} (hholds : layout.Holds circuit.blank progress registers)
    (henter : progress.enter machine direction = .ok work) :
    ∃ beginning, progress.state.begin direction = .ok beginning ∧
      (∀ data, circuit.absorb direction beginning data registers =
        circuit.absorb direction false data (layout.holding direction work)) ∧
      ∀ tag, circuit.conclude direction beginning tag registers =
        circuit.conclude direction false tag (layout.holding direction work) := by
  cases progress with
  | fresh =>
      cases henter
      cases hholds
      exact ⟨true, rfl, hsimulates.absorb_begin direction, hsimulates.conclude_begin direction⟩
  | active current held =>
      simp only [Progress.enter] at henter
      split at henter
      next hsame =>
        cases henter
        cases hsame
        cases hholds
        exact ⟨false, by cases direction <;> rfl, fun _ ↦ rfl, fun _ ↦ rfl⟩
      next => cases henter
  | finalized => cases henter
  | poisoned => cases henter

end Begin

/-- A mode without authentication keeps the tag as it is. -/
theorem Mode.tag_of_conclude {mode : Mode} {key : Aes.Key} {iv : BitVec mode.ivBits}
    {direction : Direction} {work : mode.Work} {tag output final : Bytes}
    (hmode : mode.authenticated = false)
    (hconclude : (mode.machine key iv).conclude direction work tag = .done output final) :
    final = tag := by
  cases mode with
  | cbc =>
      cases direction with
      | encrypt => cases hconclude; rfl
      | decrypt =>
          simp only [Mode.machine, Cbc.machine] at hconclude
          split at hconclude
          next => cases hconclude
          next => split at hconclude <;> cases hconclude; rfl
  | ctr => cases hconclude; rfl
  | gcm => cases hmode
  | keyWrap =>
      cases direction with
      | encrypt =>
          simp only [Mode.machine, KeyWrap.machine] at hconclude
          split at hconclude <;> cases hconclude; rfl
      | decrypt =>
          simp only [Mode.machine, KeyWrap.machine] at hconclude
          split at hconclude
          next =>
            split at hconclude
            next => cases hconclude
            next => split at hconclude <;> cases hconclude; rfl
          next => cases hconclude

/-- The device with these registers that is in the state of a session and holds its tag. -/
def Session.deviceWith (session : Session) (registers : session.mode.Registers) : Device :=
  ⟨session.mode, session.key, session.iv, session.tag, session.state, registers⟩

/-- A device shows a session: its registers hold what the session carries. A mode without
authentication has no tag. -/
inductive Shows : Device → Session → Prop
  | intro (session : Session) (registers : session.mode.Registers)
      (hholds : session.mode.layout.Holds (session.mode.circuit session.key session.iv).blank
        session.progress registers)
      (htag : session.mode.authenticated = false → session.tag = []) :
      Shows (session.deviceWith registers) session

/-- A device and a session give the same answer and are then in step again. -/
def InStep (given : Except CipherError Bytes × Device)
    (expected : Except CipherError Bytes × Session) : Prop :=
  given.1 = expected.1 ∧ Shows given.2 expected.2

namespace Shows

variable {device : Device} {session : Session}

theorem feed (hshows : Shows device session) (direction : Direction) (data : Bytes) :
    InStep (device.feed direction data) (session.feed direction data) := by
  obtain ⟨session, registers, hholds, htag⟩ := hshows
  have hsimulates := session.mode.simulates session.key session.iv
  simp only [Device.feed, Session.feed, Session.deviceWith, Device.circuit, Session.state,
    Session.machine]
  cases henter : session.progress.enter (session.mode.machine session.key session.iv) direction with
  | error error =>
      simp only [SessionState.begin_eq_error henter]
      exact ⟨rfl, .intro session registers hholds htag⟩
  | ok work =>
      obtain ⟨beginning, hbegin, habsorb, -⟩ := hsimulates.begin_eq_ok hholds henter
      have hgiven := hsimulates.absorb direction work data
      simp only [hbegin, habsorb]
      cases hmachine : (session.mode.machine session.key session.iv).absorb direction work data with
      | error error =>
          rw [hmachine] at hgiven
          obtain ⟨left, hbroken, hfailed⟩ := hgiven
          simp only [hbroken]
          exact ⟨rfl, .intro { session with progress := .poisoned } left hfailed htag⟩
      | ok fed =>
          rw [hmachine] at hgiven
          obtain ⟨output, next⟩ := fed
          have hreleased : _ = (_, _) := hgiven
          simp only [hreleased]
          exact ⟨rfl, .intro { session with progress := .active direction next } _ rfl htag⟩

theorem finalize (hshows : Shows device session) (direction : Direction) :
    InStep (device.finalize direction) (session.finalize direction) := by
  obtain ⟨session, registers, hholds, htag⟩ := hshows
  have hsimulates := session.mode.simulates session.key session.iv
  simp only [Device.finalize, Session.finalize, Session.deviceWith, Device.circuit, Session.state,
    Session.machine]
  cases henter : session.progress.enter (session.mode.machine session.key session.iv) direction with
  | error error =>
      simp only [SessionState.begin_eq_error henter]
      exact ⟨rfl, .intro session registers hholds htag⟩
  | ok work =>
      obtain ⟨beginning, hbegin, -, hconclude⟩ := hsimulates.begin_eq_ok hholds henter
      obtain ⟨left, hgiven, hleft⟩ := hsimulates.conclude direction work session.tag
      simp only [hbegin, hconclude, hgiven]
      cases hmachine :
        (session.mode.machine session.key session.iv).conclude direction work session.tag with
      | done output final =>
          rw [hmachine] at hleft
          -- A tag comes out of an authenticated mode only.
          have hfinal : session.mode.authenticated = false → final = [] := fun hmode ↦ by
            rw [Mode.tag_of_conclude hmode hmachine, htag hmode]
          exact ⟨rfl,
            .intro { session with tag := final, progress := .finalized } left hleft hfinal⟩
      | retry error =>
          rw [hmachine] at hleft
          exact ⟨rfl, .intro { session with progress := .active direction work } left hleft htag⟩
      | broken error =>
          rw [hmachine] at hleft
          exact ⟨rfl, .intro { session with progress := .poisoned } left hleft htag⟩

theorem process (hshows : Shows device session) (direction : Direction) (data : Bytes) :
    InStep (device.process direction data) (session.process direction data) := by
  have hfeed := hshows.feed direction data
  simp only [Device.process, Session.process]
  rcases hgiven : device.feed direction data with ⟨answer, fed⟩
  rcases hexpected : session.feed direction data with ⟨expected, carrying⟩
  rw [hgiven, hexpected] at hfeed
  obtain ⟨hanswer, hfed⟩ := hfeed
  cases hanswer
  cases answer with
  | error error => exact ⟨rfl, hfed⟩
  | ok head =>
      have hfinalize := hfed.finalize direction
      dsimp only at hfinalize ⊢
      rcases hgiven : fed.finalize direction with ⟨answer, ended⟩
      rcases hexpected : carrying.finalize direction with ⟨expected, last⟩
      rw [hgiven, hexpected] at hfinalize
      obtain ⟨hanswer, hended⟩ := hfinalize
      cases hanswer
      cases answer with
      | error error => exact ⟨rfl, hended⟩
      | ok tail => exact ⟨rfl, hended⟩

/-- Clearing the registers is as good as dropping the work, and leaves no tag in any mode. -/
theorem reset (hshows : Shows device session) : Shows device.reset session.reset := by
  obtain ⟨session, registers, hholds, htag⟩ := hshows
  have hclear := (session.mode.simulates session.key session.iv).clear_eq registers
  have hnone : (if session.mode.authenticated then [] else session.tag) = [] := by
    split
    next => rfl
    next hmode => exact htag (Bool.eq_false_iff.mpr hmode)
  show Shows ⟨session.mode, session.key, session.iv,
    if session.mode.authenticated then [] else session.tag, .fresh,
    (session.mode.circuit session.key session.iv).clear registers⟩ session.reset
  rw [hclear, hnone]
  exact .intro session.reset _ rfl fun _ ↦ rfl

theorem setTag (hshows : Shows device session) (tag : Bytes) :
    Shows (device.setTag tag) (session.setTag tag) := by
  obtain ⟨session, registers, hholds, htag⟩ := hshows
  rw [Device.setTag, Session.setTag]
  cases hmode : session.mode.authenticated with
  | true =>
      rw [if_pos (by exact hmode), if_pos (by rfl)]
      exact .intro { session with tag } registers hholds fun hnot ↦ by cases hmode.symm.trans hnot
  | false =>
      rw [if_neg (by exact Bool.eq_false_iff.mp hmode), if_neg (by decide)]
      exact .intro session registers hholds htag

theorem step (hshows : Shows device session) (operation : Session.Operation) :
    InStep (device.step operation) (session.step operation) := by
  cases operation with
  | feed direction data => exact hshows.feed direction data
  | finalize direction => exact hshows.finalize direction
  | process direction data => exact hshows.process direction data
  | reset => exact ⟨rfl, hshows.reset⟩
  | setTag tag => exact ⟨rfl, hshows.setTag tag⟩

theorem after (hshows : Shows device session) (operations : List Session.Operation) :
    Shows (device.after operations) (session.run operations).2 := by
  induction operations generalizing device session with
  | nil => exact hshows
  | cons operation rest ih => exact ih (hshows.step operation).2

theorem state_eq (hshows : Shows device session) : device.state = session.state := by
  cases hshows
  rfl

theorem tag?_eq (hshows : Shows device session) : device.tag? = session.tag? := by
  cases hshows
  rfl

theorem trace_eq (hshows : Shows device session) (operations : List Session.Operation) :
    device.trace operations = session.trace operations := by
  induction operations generalizing device session with
  | nil => rfl
  | cons operation rest ih =>
      obtain ⟨hanswer, hnext⟩ := hshows.step operation
      simp only [Device.trace, Session.trace]
      rw [hanswer, hnext.state_eq, hnext.tag?_eq, ih hnext]

/-- A device that shows a fresh session has blank registers and no tag but that of the session. -/
theorem eq_device (hshows : Shows device session) (hfresh : session.progress = .fresh) :
    device = session.device := by
  obtain ⟨session, registers, hholds, htag⟩ := hshows
  rw [hfresh] at hholds
  cases hholds
  simp only [Session.deviceWith, Session.state, hfresh]
  rfl

/-- A device that shows a session under way has registers that hold its work. -/
theorem eq_deviceWith (hshows : Shows device session) {direction : Direction}
    {work : session.mode.Work} (hactive : session.progress = .active direction work) :
    device = session.deviceWith (session.mode.layout.holding direction work) := by
  obtain ⟨session, registers, hholds, htag⟩ := hshows
  rw [hactive] at hholds
  exact congrArg session.deviceWith hholds

end Shows

namespace Session

variable {session : Session}

/-- Whatever a session is created from, its device shows it. -/
theorem shows_device {mode : Mode} {key iv tag : Bytes}
    (hcreate : Session.create mode key iv tag = .ok session) : Shows session.device session := by
  obtain ⟨typedKey, typedIv, -, -, rfl⟩ := create_eq_ok_iff.mp hcreate
  refine .intro _ _ rfl fun hmode ↦ ?_
  rw [hmode]
  rfl

/-- What can be seen of a device is what can be seen of its session. -/
theorem trace_device {mode : Mode} {key iv tag : Bytes}
    (hcreate : Session.create mode key iv tag = .ok session) (operations : List Operation) :
    session.device.trace operations = session.trace operations :=
  (shows_device hcreate).trace_eq operations

end Session

end SealedStore

import SealedStore.Keys.Remote
import SealedStore.Proofs.Client.Writing
import SealedStore.Proofs.Keys.Local

/-!
# Calls that share one random source

Any number of calls put objects or wrap keys, by clients and providers of every kind, with draws
from one facility and objects in one store. Between any two draws of a call, and between any two of
its requests to the store, every other call may go on. `Workload.step` is one step of one of the
calls, and a run follows a schedule of them. Each draw that a call takes is noted with the call, the
purpose and the place in the random source.

The steps are those of a put: it is prepared by three actions, each with at most one draw
(`Client.prepare_eq_steps`), and a call that runs alone is a put (`run_put_alone`) or a wrapping
(`run_wrap_alone`). All that happens to the facility is that draws are taken from it
(`onlyDraws_prepare`).
-/

namespace SealedStore

/-! ## What an action does to the facility -/

namespace Action

variable {ε ε' α β : Type}

/-- The action takes draws, and does nothing else to the facility. -/
def OnlyDraws (action : Action ε α) : Prop :=
  ∀ facility, ∃ count, (action facility).2 = facility.afterDraws count

theorem onlyDraws_pure (value : α) : OnlyDraws (pure value : Action ε α) :=
  fun _ ↦ ⟨0, rfl⟩

theorem onlyDraws_get : OnlyDraws (get : Action ε Facility) :=
  fun _ ↦ ⟨0, rfl⟩

theorem onlyDraws_liftExcept (result : Except ε α) : OnlyDraws (liftExcept result : Action ε α) := by
  intro facility
  cases result <;> exact ⟨0, rfl⟩

theorem OnlyDraws.mapError {action : Action ε α} (haction : action.OnlyDraws)
    (rename : ε → ε') : (action.mapError rename).OnlyDraws :=
  haction

theorem OnlyDraws.bind {first : Action ε α} {rest : α → Action ε β} (hfirst : first.OnlyDraws)
    (hrest : ∀ value, (rest value).OnlyDraws) : OnlyDraws (first >>= rest) := by
  intro facility
  obtain ⟨count, hcount⟩ := hfirst facility
  rw [bind_apply]
  rcases hresult : first facility with ⟨error | value, between⟩
  · rw [hresult] at hcount
    exact ⟨count, hcount⟩
  · rw [hresult] at hcount
    obtain ⟨more, hmore⟩ := hrest value between
    refine ⟨count + more, hmore.trans ?_⟩
    rw [show between = facility.afterDraws count from hcount, Facility.afterDraws_afterDraws]

theorem onlyDraws_draw (count : Nat) : OnlyDraws (Facility.draw count) := by
  intro facility
  unfold Facility.draw
  split
  · exact ⟨1, rfl⟩
  · exact ⟨0, rfl⟩

end Action

/-! ## The key providers -/

/-- A key provider: over a master key that is held locally, or over a key of a service. -/
inductive Keyring where
  | held (keys : LocalKeys)
  | served (keys : RemoteKeys)

namespace Keyring

/-- The provider of a keyring. -/
def provider : Keyring → KeyProvider
  | held keys => keys.provider
  | served keys => keys.provider

/-- Wrapping takes draws at most. -/
theorem onlyDraws_wrap (keyring : Keyring) (contentKey : Bytes) (description : Description) :
    (keyring.provider.wrap contentKey description).OnlyDraws := by
  cases keyring with
  | held keys =>
      have hbytes : (keys.wrapBytes contentKey).OnlyDraws := by
        unfold LocalKeys.wrapBytes
        cases keys.algorithm with
        | aesWrap => exact Action.onlyDraws_get.bind fun _ ↦ Action.onlyDraws_liftExcept _
        | aesGcm =>
            exact (Action.onlyDraws_draw _).bind fun _ ↦
              Action.onlyDraws_get.bind fun _ ↦ Action.onlyDraws_liftExcept _
      exact (hbytes.mapError _).bind fun _ ↦ Action.onlyDraws_pure _
  | served keys => exact Action.onlyDraws_liftExcept _

end Keyring

/-- A client over a keyring. -/
structure Writer where
  keyring : Keyring
  scheme : Scheme
  placement : Placement

/-- The client of a writer. -/
def Writer.client (writer : Writer) : Client :=
  ⟨writer.keyring.provider, writer.scheme, writer.placement⟩

/-! ## The steps of a put -/

namespace Client

variable {client : Client} {facility next : Facility} {contentKey iv plaintext body : Bytes}
  {description : Description} {material : Material}

/-- To begin with, the content key is drawn. -/
def drawKey : Action ClientError Bytes :=
  (Facility.draw Aes.keyLength).mapError .cipher

/-- Then the IV is drawn and the body is sealed. -/
def sealWithDraw (client : Client) (contentKey plaintext : Bytes) :
    Action ClientError (Bytes × Bytes) := do
  let iv ← (Facility.draw client.scheme.ivLength).mapError .cipher
  let facility ← MonadState.get
  let body ← liftExcept
    ((sealBody facility client.scheme contentKey iv plaintext).mapError ClientError.cipher)
  return (iv, body)

/-- At last the content key is wrapped, and the material is built. -/
def wrapAndBuild (client : Client) (contentKey iv : Bytes) (description : Description) :
    Action ClientError Material := do
  let wrapped ← (client.provider.wrap contentKey description).mapError .keys
  liftExcept
    ((Draft.build ⟨client.scheme, wrapped.algorithm, wrapped.bytes, iv, none,
      wrapped.description⟩).mapError ClientError.envelope)

/-- A put is prepared in these three steps. -/
theorem prepare_eq_steps (client : Client) (key : String) (plaintext : Bytes)
    (description : Description) :
    client.prepare key plaintext description = do
      let contentKey ← drawKey
      let sealed ← client.sealWithDraw contentKey plaintext
      let material ← client.wrapAndBuild contentKey sealed.1 description
      return client.requests key sealed.2 material := by
  simp only [prepare, drawKey, sealWithDraw, wrapAndBuild, bind_assoc, pure_bind]

theorem drawKey_eq_ok_iff :
    drawKey facility = (.ok contentKey, next) ↔
      facility.isOpen ∧ contentKey = facility.source.bytes facility.drawn Aes.keyLength ∧
        next = facility.afterDraws 1 := by
  rw [drawKey, Action.mapError_eq_ok_iff, Facility.draw_eq_ok_iff]
  rfl

theorem sealWithDraw_eq_ok_iff :
    client.sealWithDraw contentKey plaintext facility = (.ok (iv, body), next) ↔
      facility.isOpen ∧ iv = facility.source.bytes facility.drawn client.scheme.ivLength ∧
        next = facility.afterDraws 1 ∧
        sealBody next client.scheme contentKey iv plaintext = .ok body := by
  unfold sealWithDraw
  simp only [Action.bind_eq_ok_iff, Action.mapError_eq_ok_iff, Action.get_eq_ok_iff,
    Action.liftExcept_eq_ok_iff, Outcome.mapError_eq_ok_iff, Action.pure_eq_ok_iff]
  constructor
  · rintro ⟨drawn, _, hdraw, _, _, ⟨rfl, rfl⟩, sealed, _, ⟨hseal, rfl⟩, hsame, rfl⟩
    cases hsame
    obtain ⟨hopen, rfl, rfl⟩ := Facility.draw_eq_ok_iff.mp hdraw
    exact ⟨hopen, rfl, rfl, hseal⟩
  · rintro ⟨hopen, rfl, rfl, hseal⟩
    exact ⟨_, _, Facility.draw_eq_ok_iff.mpr ⟨hopen, rfl, rfl⟩, _, _, ⟨rfl, rfl⟩, body, _,
      ⟨hseal, rfl⟩, rfl, rfl⟩

theorem wrapAndBuild_eq_ok_iff :
    client.wrapAndBuild contentKey iv description facility = (.ok material, next) ↔
      ∃ wrapped, client.provider.wrap contentKey description facility = (.ok wrapped, next) ∧
        Draft.build ⟨client.scheme, wrapped.algorithm, wrapped.bytes, iv, none,
          wrapped.description⟩ = .ok material := by
  unfold wrapAndBuild
  simp only [Action.bind_eq_ok_iff, Action.mapError_eq_ok_iff, Action.liftExcept_eq_ok_iff,
    Outcome.mapError_eq_ok_iff]
  constructor
  · rintro ⟨wrapped, _, hwrap, hbuild, rfl⟩
    exact ⟨wrapped, hwrap, hbuild⟩
  · rintro ⟨wrapped, hwrap, hbuild⟩
    exact ⟨wrapped, next, hwrap, hbuild, rfl⟩

theorem onlyDraws_drawKey : drawKey.OnlyDraws :=
  (Action.onlyDraws_draw _).mapError _

theorem onlyDraws_sealWithDraw : (client.sealWithDraw contentKey plaintext).OnlyDraws :=
  ((Action.onlyDraws_draw _).mapError _).bind fun _ ↦ Action.onlyDraws_get.bind fun _ ↦
    (Action.onlyDraws_liftExcept _).bind fun _ ↦ Action.onlyDraws_pure _

theorem onlyDraws_wrapAndBuild (writer : Writer) :
    (writer.client.wrapAndBuild contentKey iv description).OnlyDraws :=
  ((writer.keyring.onlyDraws_wrap _ _).mapError _).bind fun _ ↦ Action.onlyDraws_liftExcept _

/-- All that preparing does to the facility is to take draws from it. -/
theorem onlyDraws_prepare (writer : Writer) (key : String) (plaintext : Bytes)
    (description : Description) :
    (writer.client.prepare key plaintext description).OnlyDraws := by
  rw [prepare_eq_steps]
  exact onlyDraws_drawKey.bind fun _ ↦ onlyDraws_sealWithDraw.bind fun _ ↦
    (onlyDraws_wrapAndBuild writer).bind fun _ ↦ Action.onlyDraws_pure _

end Client

/-! ## Calls in progress -/

/-- What a call is about: to put an object, or to have a content key wrapped. -/
inductive Task where
  | put (writer : Writer) (key : String) (plaintext : Bytes) (description : Description)
  | wrap (keyring : Keyring) (contentKey : Bytes) (description : Description)

/-- What a draw is taken for. -/
inductive Purpose where
  | contentKey
  | contentIv (scheme : Scheme)
  /-- For the IV under which a local provider wraps in Galois counter mode. -/
  | wrapIv

/-- How many bytes are drawn for a purpose. -/
def Purpose.length : Purpose → Nat
  | contentKey => Aes.keyLength
  | contentIv scheme => scheme.ivLength
  | wrapIv => LocalKeys.ivLength

/-- A draw: the number of the call that took it, what for, and its place in the random source. -/
structure Draw where
  call : Nat
  purpose : Purpose
  place : Nat

/-- The bytes of a draw. -/
def Draw.bytes (source : RandomSource) (draw : Draw) : Bytes :=
  source.bytes draw.place draw.purpose.length

/-- What a put has made when it begins to write. -/
structure Made where
  contentKey : Bytes
  iv : Bytes
  body : Bytes
  material : Material

/-- How far a call has come. -/
inductive Phase where
  | waiting
  /-- The content key is drawn. -/
  | keyed (contentKey : Bytes)
  /-- The IV is drawn as well, and the body is sealed. -/
  | sealed (contentKey iv body : Bytes)
  /-- All is made, and these requests are left. -/
  | writing (made : Made) (left : List PutRequest)
  /-- The store has answered all requests, or has failed one. -/
  | returned (made : Made) (answer : Except StoreError Unit)
  /-- The key that was to be wrapped is wrapped. -/
  | wrapped (result : WrappedKey)
  /-- The call has failed before it wrote anything. -/
  | failed (error : ClientError)

namespace Phase

/-- What a put has made, once it has. -/
def made? : Phase → Option Made
  | writing made _ => some made
  | returned made _ => some made
  | waiting | keyed _ | sealed _ _ _ | wrapped _ | failed _ => none

/-- What a put answers, once it does. -/
def putAnswer? : Phase → Option (Except ClientError Unit)
  | returned _ answer => some (answer.mapError .store)
  | failed error => some (.error error)
  | waiting | keyed _ | sealed _ _ _ | writing _ _ | wrapped _ => none

/-- What a call for a wrapped key answers, once it does. -/
def wrapAnswer? : Phase → Option (Except ClientError WrappedKey)
  | wrapped result => some (.ok result)
  | failed error => some (.error error)
  | waiting | keyed _ | sealed _ _ _ | writing _ _ | returned _ _ => none

/-- The phase after an action: success leads on, and failure ends the call. -/
def after {α : Type} (onward : α → Phase) : Except ClientError α → Phase
  | .ok value => onward value
  | .error error => .failed error

end Phase

/-- A call in progress. -/
structure Course where
  task : Task
  phase : Phase

/-- What a call has wrapped, once it has: the keyring, the content key and the bytes it became. -/
def Course.wrapped? : Course → Option (Keyring × Bytes × Bytes)
  | ⟨.put writer _ _ _, phase⟩ =>
      phase.made?.map fun made ↦ (writer.keyring, made.contentKey, made.material.wrappedKey)
  | ⟨.wrap keyring contentKey _, .wrapped result⟩ => some (keyring, contentKey, result.bytes)
  | ⟨.wrap _ _ _, _⟩ => none

/-- The calls in progress with the facility and the store they share, and the draws so far. -/
structure Workload (σ : Type) where
  facility : Facility
  state : σ
  courses : List Course
  draws : List Draw

/-- The draws that one state of the facility has given out more than another. -/
def Draw.between (call : Nat) (purpose : Purpose) (before after : Facility) : List Draw :=
  (List.range' before.drawn (after.drawn - before.drawn)).map (⟨call, purpose, ·⟩)

@[simp] theorem Draw.between_afterDraws (call : Nat) (purpose : Purpose) (facility : Facility)
    (count : Nat) :
    between call purpose facility (facility.afterDraws count) =
      (List.range' facility.drawn count).map (⟨call, purpose, ·⟩) := by
  rw [between, Facility.drawn_afterDraws, Nat.add_sub_cancel_left]

namespace Workload

variable {σ : Type}

/-- No call has begun. -/
def start (facility : Facility) (state : σ) (tasks : List Task) : Workload σ :=
  ⟨facility, state, tasks.map (⟨·, .waiting⟩), []⟩

/-- A call with a number goes on by an action on the facility. The draws that the action takes are
noted whether it succeeds or not. -/
def act {α : Type} (workload : Workload σ) (number : Nat) (task : Task) (purpose : Purpose)
    (action : Action ClientError α) (onward : α → Phase) : Workload σ :=
  { workload with
    facility := (action workload.facility).2
    courses := workload.courses.set number
      ⟨task, Phase.after onward (action workload.facility).1⟩
    draws := workload.draws ++
      Draw.between number purpose workload.facility (action workload.facility).2 }

/-- The next step of the call with a number: its next action, its next request, or its return. -/
def step (store : ObjectStore σ) (workload : Workload σ) (number : Nat) : Workload σ :=
  match workload.courses[number]? with
  | some ⟨.put writer key plaintext description, .waiting⟩ =>
      workload.act number (.put writer key plaintext description) .contentKey Client.drawKey .keyed
  | some ⟨.put writer key plaintext description, .keyed contentKey⟩ =>
      workload.act number (.put writer key plaintext description) (.contentIv writer.scheme)
        (writer.client.sealWithDraw contentKey plaintext)
        fun drawn ↦ .sealed contentKey drawn.1 drawn.2
  | some ⟨.put writer key plaintext description, .sealed contentKey iv body⟩ =>
      workload.act number (.put writer key plaintext description) .wrapIv
        (writer.client.wrapAndBuild contentKey iv description)
        fun material ↦ .writing ⟨contentKey, iv, body, material⟩
          (writer.client.requests key body material)
  | some ⟨.put writer key plaintext description, .writing made (request :: rest)⟩ =>
      match store.put workload.state request with
      | .ok next =>
          { workload with
            state := next
            courses := workload.courses.set number
              ⟨.put writer key plaintext description, .writing made rest⟩ }
      | .error reason =>
          { workload with
            courses := workload.courses.set number
              ⟨.put writer key plaintext description, .returned made (.error reason)⟩ }
  | some ⟨.put writer key plaintext description, .writing made []⟩ =>
      { workload with
        courses := workload.courses.set number
          ⟨.put writer key plaintext description, .returned made (.ok ())⟩ }
  | some ⟨.wrap keyring contentKey description, .waiting⟩ =>
      workload.act number (.wrap keyring contentKey description) .wrapIv
        ((keyring.provider.wrap contentKey description).mapError .keys) .wrapped
  | _ => workload

/-- The steps of a schedule, one after the other. -/
def run (store : ObjectStore σ) (workload : Workload σ) (schedule : List Nat) : Workload σ :=
  schedule.foldl (step store) workload

/-! ## What a step does -/

section Step

variable {store : ObjectStore σ} {workload : Workload σ} {number : Nat} {writer : Writer}
  {key : String} {plaintext : Bytes} {description : Description} {made : Made}

theorem step_of_waiting
    (hcourse : workload.courses[number]? = some ⟨.put writer key plaintext description, .waiting⟩) :
    workload.step store number =
      workload.act number (.put writer key plaintext description) .contentKey Client.drawKey
        .keyed := by
  simp only [step, hcourse]

theorem step_of_keyed {contentKey : Bytes}
    (hcourse : workload.courses[number]? =
      some ⟨.put writer key plaintext description, .keyed contentKey⟩) :
    workload.step store number =
      workload.act number (.put writer key plaintext description) (.contentIv writer.scheme)
        (writer.client.sealWithDraw contentKey plaintext)
        fun drawn ↦ .sealed contentKey drawn.1 drawn.2 := by
  simp only [step, hcourse]

theorem step_of_sealed {contentKey iv body : Bytes}
    (hcourse : workload.courses[number]? =
      some ⟨.put writer key plaintext description, .sealed contentKey iv body⟩) :
    workload.step store number =
      workload.act number (.put writer key plaintext description) .wrapIv
        (writer.client.wrapAndBuild contentKey iv description)
        fun material ↦ .writing ⟨contentKey, iv, body, material⟩
          (writer.client.requests key body material) := by
  simp only [step, hcourse]

theorem step_of_put_ok {request : PutRequest} {rest : List PutRequest} {written : σ}
    (hcourse : workload.courses[number]? =
      some ⟨.put writer key plaintext description, .writing made (request :: rest)⟩)
    (hput : store.put workload.state request = .ok written) :
    workload.step store number =
      { workload with
        state := written
        courses := workload.courses.set number
          ⟨.put writer key plaintext description, .writing made rest⟩ } := by
  simp only [step, hcourse, hput]

theorem step_of_put_error {request : PutRequest} {rest : List PutRequest} {reason : StoreError}
    (hcourse : workload.courses[number]? =
      some ⟨.put writer key plaintext description, .writing made (request :: rest)⟩)
    (hput : store.put workload.state request = .error reason) :
    workload.step store number =
      { workload with
        courses := workload.courses.set number
          ⟨.put writer key plaintext description, .returned made (.error reason)⟩ } := by
  simp only [step, hcourse, hput]

theorem step_of_written
    (hcourse : workload.courses[number]? =
      some ⟨.put writer key plaintext description, .writing made []⟩) :
    workload.step store number =
      { workload with
        courses := workload.courses.set number
          ⟨.put writer key plaintext description, .returned made (.ok ())⟩ } := by
  simp only [step, hcourse]

theorem step_of_wrap {keyring : Keyring} {contentKey : Bytes}
    (hcourse : workload.courses[number]? =
      some ⟨.wrap keyring contentKey description, .waiting⟩) :
    workload.step store number =
      workload.act number (.wrap keyring contentKey description) .wrapIv
        ((keyring.provider.wrap contentKey description).mapError .keys) .wrapped := by
  simp only [step, hcourse]

theorem step_of_none (hcourse : workload.courses[number]? = none) :
    workload.step store number = workload := by
  simp only [step, hcourse]

/-- A call that has come to an end stays as it is. -/
theorem step_of_ended {task : Task} {phase : Phase}
    (hcourse : workload.courses[number]? = some ⟨task, phase⟩)
    (hended : phase.putAnswer? ≠ none ∨ phase.wrapAnswer? ≠ none) :
    workload.step store number = workload := by
  cases phase with
  | waiting | keyed | sealed | writing => simp [Phase.putAnswer?, Phase.wrapAnswer?] at hended
  | returned | wrapped | failed => cases task <;> simp only [step, hcourse]

end Step

/-! ## A call that runs alone -/

section Alone

variable {store : ObjectStore σ} {writer : Writer} {key : String} {plaintext : Bytes}
  {description : Description} {facility : Facility} {draws : List Draw}

/-- Where a step changes nothing, neither does a run. -/
theorem run_of_step_eq {workload : Workload σ} (hstep : workload.step store 0 = workload)
    (count : Nat) : workload.run store (List.replicate count 0) = workload := by
  induction count with
  | zero => rfl
  | succ count ih =>
      rw [List.replicate_succ, run, List.foldl_cons, hstep]
      exact ih

/-- Alone, a call goes on by its next action, and then runs on. -/
theorem run_act {α : Type} {task : Task} {before : Phase} {purpose : Purpose}
    {action : Action ClientError α} {onward : α → Phase} {state : σ} {next : Facility}
    {result : Except ClientError α}
    (hstep : (Workload.mk facility state [⟨task, before⟩] draws).step store 0 =
      (Workload.mk facility state [⟨task, before⟩] draws).act 0 task purpose action onward)
    (haction : action facility = (result, next)) (count : Nat) :
    (Workload.mk facility state [⟨task, before⟩] draws).run store (List.replicate (count + 1) 0) =
      (Workload.mk next state [⟨task, Phase.after onward result⟩]
        (draws ++ Draw.between 0 purpose facility next)).run store (List.replicate count 0) := by
  rw [List.replicate_succ, run, List.foldl_cons, hstep, act, haction]
  rfl

/-- Alone and with time enough, a put makes the requests it has left and returns what the store has
answered. -/
theorem run_writing {made : Made} {left : List PutRequest} (state : σ) {count : Nat}
    (hcount : left.length < count) :
    (Workload.mk facility state [⟨.put writer key plaintext description, .writing made left⟩]
        draws).run store (List.replicate count 0) =
      ⟨facility, (store.putAll state left).2, [⟨.put writer key plaintext description,
        .returned made (store.putAll state left).1⟩], draws⟩ := by
  induction left generalizing state count with
  | nil =>
      cases count with
      | zero => cases hcount
      | succ count => exact run_of_step_eq rfl count
  | cons request rest ih =>
      cases count with
      | zero => cases hcount
      | succ count =>
          have hcourse : (Workload.mk facility state [⟨.put writer key plaintext description,
              .writing made (request :: rest)⟩] draws).courses[0]? =
              some ⟨.put writer key plaintext description, .writing made (request :: rest)⟩ := rfl
          rw [List.replicate_succ, run, List.foldl_cons, ObjectStore.putAll]
          cases hput : store.put state request with
          | error reason =>
              rw [step_of_put_error hcourse hput]
              exact run_of_step_eq rfl count
          | ok written =>
              rw [step_of_put_ok hcourse hput]
              exact ih written (Nat.lt_of_succ_lt_succ hcount)

/-- A put that is alone does what a put does: it leaves the same facility and the same store, and
answers the same. -/
theorem run_put_alone (store : ObjectStore σ) (writer : Writer) (key : String) (plaintext : Bytes)
    (description : Description) (facility : Facility) (state : σ) :
    ∃ phase draws,
      (start facility state [.put writer key plaintext description]).run store
          (List.replicate 6 0) =
        ⟨(writer.client.put store key plaintext description facility state).2.1,
          (writer.client.put store key plaintext description facility state).2.2,
          [⟨.put writer key plaintext description, phase⟩], draws⟩ ∧
      phase.putAnswer? =
        some (writer.client.put store key plaintext description facility state).1 := by
  have hprepare := congrFun (writer.client.prepare_eq_steps key plaintext description) facility
  rw [Action.bind_apply] at hprepare
  -- Six steps are enough: three to prepare, two for requests at most, and one to return.
  rcases hkey : Client.drawKey facility with ⟨error | contentKey, first⟩
  · rw [hkey] at hprepare
    rw [Client.put_of_prepare_error hprepare]
    exact ⟨_, _, (run_act (step_of_waiting rfl) hkey 5).trans (run_of_step_eq rfl 5), rfl⟩
  rw [hkey] at hprepare
  dsimp only at hprepare
  rw [Action.bind_apply] at hprepare
  rcases hseal : writer.client.sealWithDraw contentKey plaintext first with ⟨error | drawn, second⟩
  · rw [hseal] at hprepare
    rw [Client.put_of_prepare_error hprepare]
    exact ⟨_, _, (run_act (step_of_waiting rfl) hkey 5).trans
      ((run_act (step_of_keyed rfl) hseal 4).trans (run_of_step_eq rfl 4)), rfl⟩
  rw [hseal] at hprepare
  dsimp only at hprepare
  rw [Action.bind_apply] at hprepare
  rcases hwrap : writer.client.wrapAndBuild contentKey drawn.1 description second with
    ⟨error | material, third⟩
  · rw [hwrap] at hprepare
    rw [Client.put_of_prepare_error hprepare]
    exact ⟨_, _, (run_act (step_of_waiting rfl) hkey 5).trans
      ((run_act (step_of_keyed rfl) hseal 4).trans
        ((run_act (step_of_sealed rfl) hwrap 3).trans (run_of_step_eq rfl 3))), rfl⟩
  rw [hwrap] at hprepare
  rw [Client.put_of_prepare_ok hprepare]
  have hcount : (writer.client.requests key drawn.2 material).length < 3 :=
    Nat.lt_succ_of_le (Client.length_requests_le _ _ _ _)
  exact ⟨_, _, (run_act (step_of_waiting rfl) hkey 5).trans
    ((run_act (step_of_keyed rfl) hseal 4).trans
      ((run_act (step_of_sealed rfl) hwrap 3).trans (run_writing state hcount))), rfl⟩

/-- A call for a wrapped key that is alone does what the provider does. -/
theorem run_wrap_alone (store : ObjectStore σ) (keyring : Keyring) (contentKey : Bytes)
    (description : Description) (facility : Facility) (state : σ) :
    ∃ phase draws,
      (start facility state [.wrap keyring contentKey description]).run store [0] =
        ⟨(keyring.provider.wrap contentKey description facility).2, state,
          [⟨.wrap keyring contentKey description, phase⟩], draws⟩ ∧
      phase.wrapAnswer? =
        some ((keyring.provider.wrap contentKey description facility).1.mapError .keys) := by
  have hwrap : (keyring.provider.wrap contentKey description).mapError ClientError.keys facility =
      ((keyring.provider.wrap contentKey description facility).1.mapError .keys,
        (keyring.provider.wrap contentKey description facility).2) := rfl
  refine ⟨_, _, run_act (step_of_wrap rfl) hwrap 0, ?_⟩
  rcases keyring.provider.wrap contentKey description facility with ⟨error | result, next⟩ <;> rfl

end Alone

end Workload

end SealedStore

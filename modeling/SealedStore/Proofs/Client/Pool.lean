import SealedStore.Proofs.Client.Party

/-!
# Calls that run side by side

Several calls put objects into one store at the same time. Each first prepares all it is going to
write, then makes its requests one by one, and then returns; between any two of these steps any
other call may go on. `Pool.step` is one step of one of the calls, and a run follows a schedule of
them. A call that runs alone is a put (`run_alone`), and a call that is scheduled often enough
returns (`ended_of_count`).

What holds at every moment of every run is `Pool.Inv`:

* `get_eq`: every object is the one of the last request that was answered for its key;
* `stage`: what a call has written and what it has left to write make up what it has prepared;
* `number_lt`: every request that was answered was made by one of the calls.
-/

namespace SealedStore

/-- How far a call has come. -/
inductive Stage where
  | waiting
  /-- The call is prepared and has these requests left. -/
  | writing (left : List PutRequest)
  | ended (answer : Except ClientError Unit)

/-- A call in progress. -/
structure Thread where
  call : PutCall
  stage : Stage

/-- The calls in progress with the facility and the store they share. -/
structure Pool (σ : Type) where
  facility : Facility
  state : σ
  threads : List Thread
  /-- The requests that were answered, in their order, each with the number of its call. -/
  log : List (Nat × PutRequest)

namespace Pool

variable {σ : Type}

/-- No call has begun. -/
def start (facility : Facility) (state : σ) (calls : List PutCall) : Pool σ :=
  ⟨facility, state, calls.map (⟨·, .waiting⟩), []⟩

/-- The next step of the call with a number: it prepares, makes its next request, or returns. -/
def step (masterKey : Bytes) (store : ObjectStore σ) (pool : Pool σ) (number : Nat) : Pool σ :=
  match pool.threads[number]? with
  | some ⟨call, .waiting⟩ =>
      match (call.party.client masterKey).prepare call.key call.plaintext call.description
          pool.facility with
      | (.ok requests, next) =>
          { pool with
            facility := next
            threads := pool.threads.set number ⟨call, .writing requests⟩ }
      | (.error error, next) =>
          { pool with
            facility := next
            threads := pool.threads.set number ⟨call, .ended (.error error)⟩ }
  | some ⟨call, .writing (request :: rest)⟩ =>
      match store.put pool.state request with
      | .ok next =>
          { pool with
            state := next
            threads := pool.threads.set number ⟨call, .writing rest⟩
            log := pool.log ++ [(number, request)] }
      | .error reason =>
          { pool with
            threads := pool.threads.set number ⟨call, .ended (.error (.store reason))⟩ }
  | some ⟨call, .writing []⟩ =>
      { pool with threads := pool.threads.set number ⟨call, .ended (.ok ())⟩ }
  | some ⟨_, .ended _⟩ => pool
  | none => pool

/-- The steps of a schedule, one after the other. -/
def run (masterKey : Bytes) (store : ObjectStore σ) (pool : Pool σ) (schedule : List Nat) :
    Pool σ :=
  schedule.foldl (step masterKey store) pool

/-- The key of an entry of the log. -/
def entryKey (entry : Nat × PutRequest) : String := entry.2.key

/-- The requests of one call in a log. -/
def writesOf (number : Nat) (log : List (Nat × PutRequest)) : List PutRequest :=
  (log.filter (·.1 = number)).map (·.2)

/-- The number of the call that was the last to write under a key. -/
def lastWriter? (pool : Pool σ) (key : String) : Option Nat :=
  (lastUnder? entryKey key pool.log).map (·.1)

/-! ## What a step does -/

section Step

variable {masterKey : Bytes} {store : ObjectStore σ} {pool : Pool σ} {number : Nat}
  {call : PutCall} {next : Facility} {requests rest : List PutRequest} {request : PutRequest}

theorem step_of_prepare_ok (hthread : pool.threads[number]? = some ⟨call, .waiting⟩)
    (hprepare : (call.party.client masterKey).prepare call.key call.plaintext call.description
      pool.facility = (.ok requests, next)) :
    pool.step masterKey store number =
      { pool with
        facility := next
        threads := pool.threads.set number ⟨call, .writing requests⟩ } := by
  simp only [step, hthread, hprepare]

theorem step_of_prepare_error {error : ClientError}
    (hthread : pool.threads[number]? = some ⟨call, .waiting⟩)
    (hprepare : (call.party.client masterKey).prepare call.key call.plaintext call.description
      pool.facility = (.error error, next)) :
    pool.step masterKey store number =
      { pool with
        facility := next
        threads := pool.threads.set number ⟨call, .ended (.error error)⟩ } := by
  simp only [step, hthread, hprepare]

theorem step_of_put_ok {written : σ}
    (hthread : pool.threads[number]? = some ⟨call, .writing (request :: rest)⟩)
    (hput : store.put pool.state request = .ok written) :
    pool.step masterKey store number =
      { pool with
        state := written
        threads := pool.threads.set number ⟨call, .writing rest⟩
        log := pool.log ++ [(number, request)] } := by
  simp only [step, hthread, hput]

theorem step_of_put_error {reason : StoreError}
    (hthread : pool.threads[number]? = some ⟨call, .writing (request :: rest)⟩)
    (hput : store.put pool.state request = .error reason) :
    pool.step masterKey store number =
      { pool with
        threads := pool.threads.set number ⟨call, .ended (.error (.store reason))⟩ } := by
  simp only [step, hthread, hput]

theorem step_of_written (hthread : pool.threads[number]? = some ⟨call, .writing []⟩) :
    pool.step masterKey store number =
      { pool with threads := pool.threads.set number ⟨call, .ended (.ok ())⟩ } := by
  simp only [step, hthread]

theorem step_of_ended {answer : Except ClientError Unit}
    (hthread : pool.threads[number]? = some ⟨call, .ended answer⟩) :
    pool.step masterKey store number = pool := by
  simp only [step, hthread]

theorem step_of_none (hthread : pool.threads[number]? = none) :
    pool.step masterKey store number = pool := by
  simp only [step, hthread]

end Step

/-! ## A call that runs alone -/

section Alone

variable {masterKey : Bytes} {store : ObjectStore σ} {call : PutCall} {facility : Facility}

theorem run_ended (answer : Except ClientError Unit) (state : σ) (log : List (Nat × PutRequest))
    (count : Nat) :
    (Pool.mk facility state [⟨call, .ended answer⟩] log).run masterKey store
        (List.replicate count 0) =
      ⟨facility, state, [⟨call, .ended answer⟩], log⟩ := by
  induction count with
  | zero => rfl
  | succ count ih => exact ih

/-- Alone and with time enough, a call that is prepared makes all its requests and returns what the
store has answered. -/
theorem run_writing {left : List PutRequest} (state : σ) (log : List (Nat × PutRequest))
    {count : Nat} (hcount : left.length < count) :
    ∃ after, (Pool.mk facility state [⟨call, .writing left⟩] log).run masterKey store
        (List.replicate count 0) =
      ⟨facility, (store.putAll state left).2,
        [⟨call, .ended ((store.putAll state left).1.mapError .store)⟩], after⟩ := by
  induction left generalizing state log count with
  | nil =>
      cases count with
      | zero => cases hcount
      | succ count => exact ⟨log, run_ended (.ok ()) state log count⟩
  | cons request rest ih =>
      cases count with
      | zero => cases hcount
      | succ count =>
          have hthread :
              (Pool.mk facility state [⟨call, .writing (request :: rest)⟩] log).threads[0]? =
                some ⟨call, .writing (request :: rest)⟩ := rfl
          rw [List.replicate_succ, run, List.foldl_cons]
          cases hput : store.put state request with
          | error reason =>
              rw [step_of_put_error hthread hput, ObjectStore.putAll, hput]
              exact ⟨log, run_ended (.error (.store reason)) state log count⟩
          | ok written =>
              rw [step_of_put_ok hthread hput, ObjectStore.putAll, hput]
              exact ih written (log ++ [(0, request)]) (Nat.lt_of_succ_lt_succ hcount)

/-- Alone, a call is a put. -/
theorem run_alone (masterKey : Bytes) (store : ObjectStore σ) (call : PutCall) (facility : Facility)
    (state : σ) :
    ∃ after, (start facility state [call]).run masterKey store (List.replicate 4 0) =
      ⟨((call.party.client masterKey).put store call.key call.plaintext call.description facility
          state).2.1,
        ((call.party.client masterKey).put store call.key call.plaintext call.description facility
          state).2.2,
        [⟨call, .ended ((call.party.client masterKey).put store call.key call.plaintext
          call.description facility state).1⟩], after⟩ := by
  -- Four steps are enough: to prepare, to make two requests at most, and to return.
  have hthread : (start facility state [call]).threads[0]? = some ⟨call, .waiting⟩ := rfl
  rw [List.replicate_succ, run, List.foldl_cons]
  cases hprepare : (call.party.client masterKey).prepare call.key call.plaintext call.description
      facility with
  | mk result next =>
      cases result with
      | error error =>
          rw [step_of_prepare_error hthread hprepare, Client.put_of_prepare_error hprepare]
          exact ⟨[], run_ended (.error error) state [] 3⟩
      | ok requests =>
          rw [step_of_prepare_ok hthread hprepare, Client.put_of_prepare_ok hprepare]
          obtain ⟨_, material, body, -, -, rfl⟩ := Party.sealed_of_prepare hprepare
          exact run_writing state [] (Nat.lt_succ_of_le (Client.length_requests_le _ _ _ _))

end Alone

/-! ## The invariant -/

/-- The requests that were answered for a call, and its stage, account for what it has prepared. -/
def Accounts (masterKey : Bytes) (call : PutCall) (done : List PutRequest) : Stage → Prop
  | .waiting => done = []
  | .writing left => call.Prepares masterKey (done ++ left)
  | .ended (.ok ()) => call.Prepares masterKey done
  | .ended (.error _) => True

/-- What holds at every moment. -/
structure Inv (masterKey : Bytes) (store : ObjectStore σ) (calls : List PutCall) (initial : σ)
    (pool : Pool σ) : Prop where
  calls_eq : pool.threads.map Thread.call = calls
  get_eq : ∀ key, store.get pool.state key =
    match lastUnder? entryKey key pool.log with
    | some entry => .ok entry.2.object
    | none => store.get initial key
  stage : ∀ number call stage, pool.threads[number]? = some ⟨call, stage⟩ →
    Accounts masterKey call (writesOf number pool.log) stage
  number_lt : ∀ entry ∈ pool.log, entry.1 < calls.length

section Inv

variable {masterKey : Bytes} {store : ObjectStore σ} {calls : List PutCall} {initial : σ}
  {pool : Pool σ} {number : Nat} {call : PutCall}

theorem writesOf_concat (number : Nat) (log : List (Nat × PutRequest)) (writer : Nat)
    (request : PutRequest) :
    writesOf number (log ++ [(writer, request)]) =
      if writer = number then writesOf number log ++ [request] else writesOf number log := by
  unfold writesOf
  rw [List.filter_append, List.map_append]
  by_cases hwriter : writer = number <;> simp [hwriter]

/-- No call gets lost. -/
theorem Inv.length_threads (hinv : Inv masterKey store calls initial pool) :
    pool.threads.length = calls.length := by
  rw [← hinv.calls_eq, List.length_map]

/-- The invariant holds at the start. -/
theorem inv_start (facility : Facility) :
    Inv masterKey store calls initial (start facility initial calls) where
  calls_eq := by
    show (calls.map fun call ↦ Thread.mk call .waiting).map Thread.call = calls
    rw [List.map_map]
    exact List.map_id calls
  get_eq _ := rfl
  stage number call stage hthread := by
    obtain ⟨_, _, hsame⟩ := List.mem_map.mp (List.mem_of_getElem? hthread)
    cases hsame
    rfl
  number_lt entry hentry := by cases hentry

/-- A call that goes on to a stage that accounts for the rest keeps the invariant. -/
theorem Inv.setStage (hinv : Inv masterKey store calls initial pool) {before after : Stage}
    (hthread : pool.threads[number]? = some ⟨call, before⟩)
    (hafter : Accounts masterKey call (writesOf number pool.log) after) (facility : Facility) :
    Inv masterKey store calls initial
      { pool with facility := facility, threads := pool.threads.set number ⟨call, after⟩ } where
  calls_eq := (map_set_of_getElem? Thread.call hthread (by rfl)).trans hinv.calls_eq
  get_eq := hinv.get_eq
  stage other found stage hfound := by
    cases getElem?_set_cases hfound with
    | inl hsame =>
        obtain ⟨rfl, ⟨⟩⟩ := hsame
        exact hafter
    | inr hother => exact hinv.stage other found stage hother.2
  number_lt := hinv.number_lt

/-- So does a call whose next request is answered. -/
theorem Inv.write (hinv : Inv masterKey store calls initial pool) (hreplacing : store.Replacing)
    {request : PutRequest} {rest : List PutRequest} {written : σ}
    (hthread : pool.threads[number]? = some ⟨call, .writing (request :: rest)⟩)
    (hput : store.put pool.state request = .ok written) :
    Inv masterKey store calls initial
      { pool with
        state := written
        threads := pool.threads.set number ⟨call, .writing rest⟩
        log := pool.log ++ [(number, request)] } where
  calls_eq := (map_set_of_getElem? Thread.call hthread (by rfl)).trans hinv.calls_eq
  get_eq key := by
    obtain ⟨hsame, hother⟩ := hreplacing pool.state request written hput
    show store.get written key = _
    rw [lastUnder?_concat]
    by_cases hkey : request.key = key
    · rw [if_pos (show entryKey (number, request) = key from hkey), ← hkey]
      exact hsame
    · rw [if_neg (show entryKey (number, request) ≠ key from hkey), hother key (Ne.symm hkey)]
      exact hinv.get_eq key
  stage other found stage hfound := by
    show Accounts masterKey found (writesOf other (pool.log ++ [(number, request)])) stage
    rw [writesOf_concat]
    cases getElem?_set_cases hfound with
    | inl hsame =>
        obtain ⟨rfl, ⟨⟩⟩ := hsame
        -- The request goes over from what is left to what is done.
        have hbefore := hinv.stage number call _ hthread
        rw [if_pos rfl]
        show call.Prepares masterKey (writesOf number pool.log ++ [request] ++ rest)
        rw [List.append_assoc]
        exact hbefore
    | inr hother =>
        rw [if_neg hother.1]
        exact hinv.stage other found stage hother.2
  number_lt entry hentry := by
    cases List.mem_append.mp hentry with
    | inl hbefore => exact hinv.number_lt entry hbefore
    | inr hlast =>
        rw [List.mem_singleton.mp hlast]
        show number < calls.length
        rw [← hinv.length_threads]
        exact (List.getElem?_eq_some_iff.mp hthread).1

/-- Every step of every call keeps the invariant. -/
theorem Inv.step (hinv : Inv masterKey store calls initial pool) (hreplacing : store.Replacing)
    (number : Nat) : Inv masterKey store calls initial (pool.step masterKey store number) := by
  cases hthread : pool.threads[number]? with
  | none =>
      rw [step_of_none hthread]
      exact hinv
  | some thread =>
      obtain ⟨call, stage⟩ := thread
      have hstage := hinv.stage number call stage hthread
      cases stage with
      | waiting =>
          cases hprepare : (call.party.client masterKey).prepare call.key call.plaintext
              call.description pool.facility with
          | mk result next =>
              cases result with
              | error error =>
                  rw [step_of_prepare_error hthread hprepare]
                  exact hinv.setStage hthread
                    (show Accounts masterKey call _ (.ended (.error error)) from trivial) next
              | ok requests =>
                  rw [step_of_prepare_ok hthread hprepare]
                  refine hinv.setStage hthread ?_ next
                  show call.Prepares masterKey (writesOf number pool.log ++ requests)
                  rw [show writesOf number pool.log = [] from hstage]
                  exact Party.sealed_of_prepare hprepare
      | writing left =>
          cases left with
          | nil =>
              rw [step_of_written hthread]
              refine hinv.setStage hthread ?_ pool.facility
              have hdone : call.Prepares masterKey (writesOf number pool.log ++ []) := hstage
              rwa [List.append_nil] at hdone
          | cons request rest =>
              cases hput : store.put pool.state request with
              | error reason =>
                  rw [step_of_put_error hthread hput]
                  exact hinv.setStage hthread
                    (show Accounts masterKey call _ (.ended (.error (.store reason))) from trivial)
                    pool.facility
              | ok written =>
                  rw [step_of_put_ok hthread hput]
                  exact hinv.write hreplacing hthread hput
      | ended answer =>
          rw [step_of_ended hthread]
          exact hinv

/-- So does every run. -/
theorem Inv.run (hinv : Inv masterKey store calls initial pool) (hreplacing : store.Replacing)
    (schedule : List Nat) :
    Inv masterKey store calls initial (pool.run masterKey store schedule) := by
  induction schedule generalizing pool with
  | nil => exact hinv
  | cons number rest ih => exact ih (hinv.step hreplacing number)

/-- The object that was written last is there. -/
theorem Inv.get_of_lastUnder? (hinv : Inv masterKey store calls initial pool) {key : String}
    {entry : Nat × PutRequest} (hlast : lastUnder? entryKey key pool.log = some entry) :
    store.get pool.state key = .ok entry.2.object := by
  rw [hinv.get_eq, hlast]

end Inv

/-! ## Calls return -/

/-- How many steps a call has left at most: it prepares, makes at most two requests, and returns. -/
def stepsLeft : Stage → Nat
  | .waiting => 4
  | .writing left => left.length + 1
  | .ended _ => 0

/-- The calls have come as far as the steps that were taken allow, and none of them has failed. -/
structure Going (calls : List PutCall) (taken : List Nat) (pool : Pool MemoryStore) : Prop where
  isOpen : pool.facility.isOpen
  stage : ∀ number call stage, pool.threads[number]? = some ⟨call, stage⟩ →
    call ∈ calls ∧ stepsLeft stage ≤ 4 - taken.count number ∧
      ∀ error, stage ≠ .ended (.error error)

section Going

variable {masterKey : Bytes} {calls : List PutCall} {taken : List Nat} {pool : Pool MemoryStore}
  {number : Nat} {call : PutCall}

theorem going_start {facility : Facility} (hopen : facility.isOpen) (objects : MemoryStore) :
    Going calls [] (start facility objects calls) where
  isOpen := hopen
  stage number call stage hthread := by
    obtain ⟨_, hcall, hsame⟩ := List.mem_map.mp (List.mem_of_getElem? hthread)
    cases hsame
    refine ⟨hcall, Nat.le_refl _, fun error ↦ ?_⟩
    intro heq
    cases heq

/-- A step takes a call on by one at least, or finds that it has returned. -/
theorem Going.advance (hgoing : Going calls taken pool) {before after : Stage}
    (hthread : pool.threads[number]? = some ⟨call, before⟩)
    (hless : stepsLeft after ≤ stepsLeft before - 1)
    (hafter : ∀ error, after ≠ .ended (.error error))
    {facility : Facility} (hopen : facility.isOpen) (state : MemoryStore)
    (log : List (Nat × PutRequest)) :
    Going calls (number :: taken)
      ⟨facility, state, pool.threads.set number ⟨call, after⟩, log⟩ where
  isOpen := hopen
  stage other found stage hfound := by
    cases getElem?_set_cases hfound with
    | inl hsame =>
        obtain ⟨rfl, ⟨⟩⟩ := hsame
        obtain ⟨hcall, hleft, -⟩ := hgoing.stage number call before hthread
        refine ⟨hcall, ?_, hafter⟩
        rw [List.count_cons_self]
        omega
    | inr hother =>
        rw [List.count_cons_of_ne hother.1]
        exact hgoing.stage other found stage hother.2

/-- A call that has returned stays as it is. -/
theorem Going.stay (hgoing : Going calls taken pool)
    (hthread : ∀ call stage, pool.threads[number]? = some ⟨call, stage⟩ → stepsLeft stage = 0) :
    Going calls (number :: taken) pool where
  isOpen := hgoing.isOpen
  stage other found stage hfound := by
    obtain ⟨hcall, hleft, hstage⟩ := hgoing.stage other found stage hfound
    refine ⟨hcall, ?_, hstage⟩
    by_cases hsame : number = other
    · have hzero := hthread found stage (hsame ▸ hfound)
      omega
    · rwa [List.count_cons_of_ne hsame]

theorem Going.step (hgoing : Going calls taken pool) (hmaster : masterKey.length = Aes.keyLength)
    (hfits : ∀ call ∈ calls, call.party.scheme.Fits call.plaintext) (number : Nat) :
    Going calls (number :: taken) (pool.step masterKey MemoryStore.store number) := by
  cases hthread : pool.threads[number]? with
  | none =>
      rw [step_of_none hthread]
      refine hgoing.stay fun call stage hfound ↦ ?_
      rw [hthread] at hfound
      cases hfound
  | some thread =>
      obtain ⟨call, stage⟩ := thread
      obtain ⟨hcall, -, hstage⟩ := hgoing.stage number call stage hthread
      cases stage with
      | waiting =>
          obtain ⟨requests, next, hprepare, hnext⟩ := Party.exists_prepare_eq_ok hmaster
            hgoing.isOpen (hfits call hcall) call.key call.description
          rw [step_of_prepare_ok hthread hprepare]
          refine hgoing.advance hthread ?_ (fun _ hfailed ↦ by cases hfailed) hnext pool.state
            pool.log
          obtain ⟨_, material, body, -, -, rfl⟩ := Party.sealed_of_prepare hprepare
          exact Nat.succ_le_succ (Client.length_requests_le _ _ _ _)
      | writing left =>
          cases left with
          | nil =>
              rw [step_of_written hthread]
              exact hgoing.advance hthread (Nat.zero_le _) (fun _ hfailed ↦ by cases hfailed)
                hgoing.isOpen _ _
          | cons request rest =>
              rw [step_of_put_ok hthread rfl]
              exact hgoing.advance hthread (Nat.le_refl _) (fun _ hfailed ↦ by cases hfailed)
                hgoing.isOpen _ _
      | ended answer =>
          rw [step_of_ended hthread]
          refine hgoing.stay fun other stage hfound ↦ ?_
          rw [hthread] at hfound
          cases hfound
          rfl

theorem Going.run (hgoing : Going calls taken pool) (hmaster : masterKey.length = Aes.keyLength)
    (hfits : ∀ call ∈ calls, call.party.scheme.Fits call.plaintext) (schedule : List Nat) :
    Going calls (schedule.reverse ++ taken) (pool.run masterKey MemoryStore.store schedule) := by
  induction schedule generalizing pool taken with
  | nil => exact hgoing
  | cons number rest ih =>
      -- The step that was taken last stands first, so the schedule is gone through backwards.
      rw [List.reverse_cons, List.append_assoc]
      exact ih (hgoing.step hmaster hfits number)

/-- In memory, every call returns that is given four steps, in whatever order the calls go on: over
a master key of the right length, with an open facility and for plaintexts that fit. -/
theorem ended_of_count {facility : Facility} (hopen : facility.isOpen)
    (hmaster : masterKey.length = Aes.keyLength)
    (hfits : ∀ call ∈ calls, call.party.scheme.Fits call.plaintext) (objects : MemoryStore)
    {schedule : List Nat} (hcount : ∀ number, number < calls.length → 4 ≤ schedule.count number) :
    ∀ thread ∈ ((start facility objects calls).run masterKey MemoryStore.store schedule).threads,
      thread.stage = .ended (.ok ()) := by
  intro thread hthread
  obtain ⟨number, hlt, hget⟩ := List.getElem_of_mem hthread
  have hfound := List.getElem?_eq_some_iff.mpr ⟨hlt, hget⟩
  have hinv : Inv masterKey MemoryStore.store calls objects
      ((start facility objects calls).run masterKey MemoryStore.store schedule) :=
    (inv_start facility).run MemoryStore.replacing_store schedule
  have hnumber : number < calls.length := by
    rw [← hinv.length_threads]
    exact hlt
  obtain ⟨call, stage⟩ := thread
  obtain ⟨-, hleft, hstage⟩ :=
    ((going_start hopen objects).run hmaster hfits schedule).stage number call stage hfound
  rw [List.append_nil, List.count_reverse] at hleft
  have henough := hcount number hnumber
  cases stage with
  | waiting => simp only [stepsLeft] at hleft; omega
  | writing left => simp only [stepsLeft] at hleft; omega
  | ended answer =>
      cases answer with
      | error error => exact absurd rfl (hstage error)
      | ok value => rfl

end Going

end Pool

end SealedStore

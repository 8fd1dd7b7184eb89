import SealedStore.Proofs.Cipher.Effect
import SealedStore.Proofs.Facility

/-!
# The life of a session

What holds over every run of calls, however long and in whatever order. A session that cannot go on
in a direction cannot do so until it is reset (`isOpen_of_step`), and a call that answers leaves it
unable to go on in the other direction, or in any if it was the last. So the answers between two
resets fit together (`pairwise_log`). `lifecycle_of_create` has all the laws of a session.
-/

namespace SealedStore.Session

variable {session : Session} {direction : Direction} {operation : Operation}
  {operations : List Operation}

/-- The operations of a run, each with its answer. -/
def log (session : Session) (operations : List Operation) :
    List (Operation × Except CipherError Bytes) :=
  operations.zip (session.run operations).1

theorem log_cons (operation : Operation) (rest : List Operation) :
    session.log (operation :: rest) =
      (operation, (session.step operation).1) :: (session.step operation).2.log rest :=
  rfl

/-! ## What never changes -/

theorem made_step (session : Session) (operation : Operation) :
    (session.step operation).2.made = session.made := by
  cases hdirection : operation.direction? with
  | some direction => exact (session.effect_step hdirection).made_eq
  | none =>
      cases (session.step_of_direction?_eq_none hdirection).2 with
      | inl hreset => rw [hreset]; rfl
      | inr htag =>
          obtain ⟨tag, hstep⟩ := htag
          rw [hstep]
          rfl

theorem made_run (session : Session) (operations : List Operation) :
    (session.run operations).2.made = session.made := by
  induction operations generalizing session with
  | nil => rfl
  | cons operation rest ih => exact (ih _).trans (session.made_step operation)

/-- Key and IV are those that the session was created from, whatever was done with it. -/
theorem parts_of_run {mode : Mode} {key iv tag : Bytes} {created : Session}
    (hcreate : Session.create mode key iv tag = .ok created)
    (hsession : (created.run operations).2 = session) :
    session.mode = mode ∧ Bytes.ofBits session.key = key ∧ Bytes.ofBits session.iv = iv := by
  obtain ⟨typedKey, typedIv, hkey, hiv, rfl⟩ := create_eq_ok_iff.mp hcreate
  have hmade := made_run ⟨mode, typedKey, typedIv, if mode.authenticated then tag else [], .fresh⟩
    operations
  rw [hsession] at hmade
  obtain ⟨sessionMode, sessionKey, sessionIv, _, _⟩ := session
  cases hmade
  exact ⟨rfl, Bytes.ofBits_of_toBits? hkey, Bytes.ofBits_of_toBits? hiv⟩

/-! ## Between two resets -/

/-- Only a reset opens a session in a direction in which it was not open. -/
theorem isOpen_of_step (hreset : operation ≠ .reset)
    (hnext : (session.step operation).2.IsOpen direction) : session.IsOpen direction := by
  cases hdirection : operation.direction? with
  | some other => exact (session.effect_step hdirection).isOpen_of_isOpen hnext
  | none =>
      obtain ⟨tag, hstep⟩ := (session.step_of_direction?_eq_none hdirection).2.resolve_left hreset
      rw [hstep] at hnext
      exact hnext

/-- So an answer shows that the session was open in its direction since the last reset. -/
theorem isOpen_of_mem_log (hreset : .reset ∉ operations)
    {entry : Operation × Except CipherError Bytes} (hentry : entry ∈ session.log operations)
    (hdirection : entry.1.direction? = some direction) (hok : entry.2.isOk) :
    session.IsOpen direction := by
  induction operations generalizing session with
  | nil => cases hentry
  | cons operation rest ih =>
      rw [List.mem_cons, not_or] at hreset
      rw [log_cons, List.mem_cons] at hentry
      cases hentry with
      | inl hhead =>
          subst hhead
          exact (session.effect_step hdirection).isOpen_of_isOk hok
      | inr hrest => exact isOpen_of_step (Ne.symm hreset.1) (ih hreset.2 hrest)

/-- Without a reset, a call that answers is followed only by answers in its own direction, and by
none if it has ended the session. -/
theorem pairwise_log (session : Session) (hreset : .reset ∉ operations) :
    (session.log operations).Pairwise fun earlier later ↦
      ∀ direction other, earlier.1.direction? = some direction → earlier.2.isOk →
        later.1.direction? = some other → later.2.isOk →
          other = direction ∧ earlier.1.ends = false := by
  induction operations generalizing session with
  | nil => exact .nil
  | cons operation rest ih =>
      rw [List.mem_cons, not_or] at hreset
      rw [log_cons]
      refine .cons (fun later hlater direction other hdirection hok hother hlaterOk ↦ ?_)
        (ih _ hreset.2)
      have hopen := isOpen_of_mem_log hreset.2 hlater hother hlaterOk
      exact (session.effect_step hdirection).of_isOpen_of_isOk hok hopen

/-- Without a reset, all answers are in one direction. -/
theorem direction_eq_of_mem_log (hreset : .reset ∉ operations)
    {left right : Operation × Except CipherError Bytes} (hleft : left ∈ session.log operations)
    (hright : right ∈ session.log operations) (hleftOk : left.2.isOk) (hrightOk : right.2.isOk)
    {other : Direction} (hdirection : left.1.direction? = some direction)
    (hother : right.1.direction? = some other) : other = direction := by
  have hpairs := List.pairwise_iff_getElem.mp (session.pairwise_log hreset)
  obtain ⟨i, hi, rfl⟩ := List.getElem_of_mem hleft
  obtain ⟨j, hj, rfl⟩ := List.getElem_of_mem hright
  rcases Nat.lt_trichotomy i j with hlt | rfl | hlt
  · exact (hpairs i j hi hj hlt direction other hdirection hleftOk hother hrightOk).1
  · exact Option.some.inj (hother.symm.trans hdirection)
  · exact (hpairs j i hj hi hlt other direction hother hrightOk hdirection hleftOk).1.symm

/-- From a failure to the next reset every call in a direction is answered by the same refusal. -/
theorem poisoned_of_mem_log (hpoisoned : session.progress = .poisoned)
    (hreset : .reset ∉ operations) {entry : Operation × Except CipherError Bytes}
    (hentry : entry ∈ session.log operations) (hdirection : entry.1.direction? ≠ none) :
    entry.2 = .error .poisoned := by
  induction operations generalizing session with
  | nil => cases hentry
  | cons operation rest ih =>
      rw [List.mem_cons, not_or] at hreset
      rw [log_cons, List.mem_cons] at hentry
      cases hentry with
      | inl hhead =>
          subst hhead
          obtain ⟨direction, hsome⟩ := Option.ne_none_iff_exists'.mp hdirection
          exact ((session.effect_step hsome).of_poisoned hpoisoned).1
      | inr hrest =>
          refine ih ?_ hreset.2 hrest
          cases hsome : operation.direction? with
          | some direction => rw [((session.effect_step hsome).of_poisoned hpoisoned).2, hpoisoned]
          | none =>
              obtain ⟨tag, hstep⟩ :=
                (session.step_of_direction?_eq_none hsome).2.resolve_left (Ne.symm hreset.1)
              rw [hstep]
              exact hpoisoned

/-! ## All laws -/

/-- A session is created, any run of calls is made on it, and `session` is what it has become.

* A call that fails poisons the session, unless the call was made in the wrong state or the tag was
  missing or of the wrong length; and while the session is poisoned, every call in a direction is
  refused as such.
* A call that is refused changes nothing.
* Between two resets there is no answer in one direction and another in the other direction.
* Between two resets, after the end of the session was answered no call in a direction is.
* Mode, key and IV are the ones from the creation. -/
theorem lifecycle_of_create {mode : Mode} {key iv tag : Bytes} {created session : Session}
    {before : List Operation} (hcreate : Session.create mode key iv tag = .ok created)
    (hsession : (created.run before).2 = session) :
    (∀ operation error next, session.step operation = (.error error, next) →
      next.state = .poisoned ∨ (∃ direction state, error = .invalidState direction state) ∨
        error = .missingTag ∨ ∃ expected actual, error = .tagLength expected actual) ∧
    (session.state = .poisoned → ∀ segment, .reset ∉ segment →
      ∀ entry ∈ session.log segment, entry.1.direction? ≠ none → entry.2 = .error .poisoned) ∧
    (∀ operation error next, session.step operation = (.error error, next) →
      (error = .poisoned ∨ ∃ direction state, error = .invalidState direction state) →
        next = session) ∧
    (∀ segment, .reset ∉ segment → ∀ left ∈ session.log segment, ∀ right ∈ session.log segment,
      left.2.isOk → left.1.direction? = some .encrypt →
        right.2.isOk → right.1.direction? ≠ some .decrypt) ∧
    (∀ segment, .reset ∉ segment → (session.log segment).Pairwise fun earlier later ↦
      earlier.1.ends → earlier.2.isOk → later.2.isOk → later.1.direction? = none) ∧
    session.mode = mode ∧ Bytes.ofBits session.key = key ∧ Bytes.ofBits session.iv = iv := by
  refine ⟨?_, ?_, ?_, ?_, ?_, parts_of_run hcreate hsession⟩
  · intro operation error next hstep
    obtain ⟨direction, heffect⟩ := effect_of_step_error hstep
    rw [state_eq_poisoned_iff]
    cases error with
    | invalidState direction state => exact .inr (.inl ⟨direction, state, rfl⟩)
    | missingTag => exact .inr (.inr (.inl rfl))
    | tagLength expected actual => exact .inr (.inr (.inr ⟨expected, actual, rfl⟩))
    | poisoned => exact .inl (heffect.poisoned_of_error (.inr rfl))
    | _ => exact .inl (heffect.poisoned_of_error (.inl rfl))
  · intro hpoisoned segment hreset entry hentry hdirection
    exact poisoned_of_mem_log (state_eq_poisoned_iff.mp hpoisoned) hreset hentry hdirection
  · intro operation error next hstep herror
    obtain ⟨direction, heffect⟩ := effect_of_step_error hstep
    refine heffect.eq_of_refusal ?_
    rcases herror with rfl | ⟨_, _, rfl⟩ <;> rfl
  · intro segment hreset left hleft right hright hleftOk hencrypt hrightOk hdecrypt
    cases direction_eq_of_mem_log hreset hleft hright hleftOk hrightOk hencrypt hdecrypt
  · intro segment hreset
    refine (session.pairwise_log hreset).imp fun {earlier later} hpair hends hok hlaterOk ↦ ?_
    obtain ⟨direction, hdirection⟩ := Operation.exists_direction?_of_ends hends
    cases hother : later.1.direction? with
    | none => rfl
    | some other =>
        have hstays := (hpair direction other hdirection hok hother hlaterOk).2
        cases hstays.symm.trans hends

/-- A ciphertext of one byte poisons a session, which then refuses whatever is fed to it, with a new
tag as well. -/
theorem lifecycle_of_create_truncated :
    ∃ created session, Session.create .cbc (Bytes.zeros 32) (Bytes.zeros 16) [] = .ok created ∧
      (created.run [.feed .decrypt [1], .finalize .decrypt]).2 = session ∧
      session.state = .poisoned ∧
      ∀ entry ∈ session.log [.setTag [], .feed .encrypt [2], .finalize .decrypt],
        entry.1.direction? ≠ none → entry.2 = .error .poisoned := by
  have hkey : (Bytes.zeros 32).toBits? 256 = some 0 := by decide
  have hiv : (Bytes.zeros 16).toBits? 128 = some 0 := by decide
  have hcreate : Session.create .cbc (Bytes.zeros 32) (Bytes.zeros 16) [] =
      .ok ⟨.cbc, 0, 0, [], .fresh⟩ := by simp [create, hkey, Mode.ivBits, hiv]
  refine ⟨_, _, hcreate, rfl, rfl, ?_⟩
  obtain ⟨-, hpoisoned, -⟩ := lifecycle_of_create hcreate rfl
  exact hpoisoned rfl _ (by simp)

end SealedStore.Session

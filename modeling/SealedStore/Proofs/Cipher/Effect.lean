import SealedStore.Proofs.Cipher.Streaming

/-!
# What one call does to a session

Whatever the cipher, a call that feeds or ends a session has one of five effects: it is refused and
nothing happens, it fails for good, it is a mistake that can be mended, or it answers, and the
session goes on or is over (`Effect`). Every call has one of them (`effect_step`), so laws of whole
runs need not look at the ciphers.
-/

namespace SealedStore

/-- What a failure means to the session. -/
inductive Severity where
  /-- The session does not take the call, and stays as it is. -/
  | refusal
  /-- The tag is not there or has the wrong length. Nothing is lost. -/
  | mistake
  /-- The work has failed. -/
  | failure
  deriving DecidableEq

/-- The severity of a failure. -/
def CipherError.severity : CipherError → Severity
  | .invalidState _ _ | .poisoned => .refusal
  | .missingTag | .tagLength _ _ => .mistake
  | _ => .failure

/-! ## The failures of machines -/

/-- An end may be tried again for the sake of the tag only, and fails for good otherwise. -/
def Conclusion.Reports : Conclusion → Prop
  | .done _ _ => True
  | .retry error => error.severity = .mistake
  | .broken error => error.severity = .failure

/-- A machine never refuses a call: the order of calls is not its business. -/
structure Machine.Reports {Work : Type} (machine : Machine Work) : Prop where
  absorb : ∀ {direction work data error},
    machine.absorb direction work data = .error error → error.severity = .failure
  conclude : ∀ direction work tag, (machine.conclude direction work tag).Reports

theorem Cbc.severity_of_unpad {bytes : Bytes} {error : CipherError}
    (hunpad : Cbc.unpad bytes = .error error) : error.severity = .failure := by
  unfold Cbc.unpad at hunpad
  split at hunpad
  next => cases hunpad; rfl
  next =>
    split at hunpad
    next =>
      split at hunpad
      next => cases hunpad; rfl
      next =>
        split at hunpad
        next => cases hunpad
        next => cases hunpad; rfl
    next => cases hunpad; rfl

theorem Cbc.reports (cipher : BlockCipher) (iv : Block) : (Cbc.machine cipher iv).Reports where
  absorb habsorb := by cases habsorb
  conclude direction work tag := by
    cases direction with
    | encrypt => exact trivial
    | decrypt =>
        simp only [Cbc.machine]
        split
        next => exact rfl
        next =>
          split
          next => exact trivial
          next hunpad => exact Cbc.severity_of_unpad hunpad

theorem Ctr.reports (cipher : BlockCipher) (iv : Block) : (Ctr.machine cipher iv).Reports where
  absorb habsorb := by
    simp only [Ctr.machine] at habsorb
    split at habsorb
    next => cases habsorb
    next => cases habsorb; rfl
  conclude _ _ _ := trivial

theorem Gcm.reports (cipher : BlockCipher) (iv : BitVec 96) : (Gcm.machine cipher iv).Reports where
  absorb habsorb := by cases habsorb
  conclude direction message given := by
    cases direction with
    | encrypt =>
        simp only [Gcm.machine]
        split
        next => exact trivial
        next => exact rfl
    | decrypt =>
        simp only [Gcm.machine]
        split
        next => exact rfl
        next =>
          split
          next => exact rfl
          next =>
            split
            next => exact trivial
            next => exact rfl

theorem KeyWrap.reports (cipher : BlockCipher) : (KeyWrap.machine cipher).Reports where
  absorb habsorb := by cases habsorb
  conclude direction key tag := by
    cases direction with
    | encrypt =>
        simp only [KeyWrap.machine]
        split
        next => exact trivial
        next => exact rfl
    | decrypt =>
        simp only [KeyWrap.machine]
        split
        next =>
          split
          next => exact rfl
          next =>
            split
            next => exact trivial
            next => exact rfl
        next => exact rfl

theorem Mode.reports (mode : Mode) (key : Aes.Key) (iv : BitVec mode.ivBits) :
    (mode.machine key iv).Reports := by
  cases mode with
  | cbc => exact Cbc.reports _ _
  | ctr => exact Ctr.reports _ _
  | gcm => exact Gcm.reports _ _
  | keyWrap => exact KeyWrap.reports _

namespace Session

variable {session : Session} {direction : Direction}

theorem reports (session : Session) : session.machine.Reports :=
  session.mode.reports session.key session.iv

/-! ## Sessions that can go on -/

/-- The session can begin or go on in the direction. -/
def IsOpen (session : Session) (direction : Direction) : Prop :=
  session.progress = .fresh ∨ ∃ work, session.progress = .active direction work

theorem isOpen_of_enter {work : session.mode.Work}
    (henter : session.progress.enter session.machine direction = .ok work) :
    session.IsOpen direction := by
  unfold Progress.enter at henter
  split at henter
  next hfresh => exact .inl hfresh
  next hactive =>
    split at henter
    next hsame => exact .inr ⟨_, by rw [hactive, hsame]⟩
    next => cases henter
  next => cases henter
  next => cases henter

theorem not_isOpen_of_enter {error : CipherError}
    (henter : session.progress.enter session.machine direction = .error error) :
    ¬ session.IsOpen direction := by
  intro hopen
  cases hopen with
  | inl hfresh => simp [hfresh, Progress.enter] at henter
  | inr hactive =>
      obtain ⟨work, hwork⟩ := hactive
      simp [hwork, Progress.enter] at henter

/-- A session that does not take a call is in the wrong state for it, or poisoned. -/
theorem cases_of_enter_error {error : CipherError}
    (henter : session.progress.enter session.machine direction = .error error) :
    (∃ state, error = .invalidState direction state) ∨
      error = .poisoned ∧ session.progress = .poisoned := by
  unfold Progress.enter at henter
  split at henter
  next => cases henter
  next =>
    split at henter
    next => cases henter
    next =>
      cases henter
      exact .inl ⟨_, rfl⟩
  next =>
    cases henter
    exact .inl ⟨_, rfl⟩
  next hpoisoned =>
    cases henter
    exact .inr ⟨rfl, hpoisoned⟩

/-- Either way it says so by a refusal. -/
theorem severity_of_enter {error : CipherError}
    (henter : session.progress.enter session.machine direction = .error error) :
    error.severity = .refusal := by
  rcases cases_of_enter_error henter with ⟨state, rfl⟩ | ⟨rfl, -⟩
  · rfl
  · rfl

/-- Only a poisoned session says that it is. -/
theorem progress_of_enter
    (henter : session.progress.enter session.machine direction = .error .poisoned) :
    session.progress = .poisoned := by
  rcases cases_of_enter_error henter with ⟨state, hstate⟩ | ⟨-, hpoisoned⟩
  · cases hstate
  · exact hpoisoned

@[simp] theorem isOpen_active {current : Direction} {work : session.mode.Work} :
    IsOpen { session with progress := .active current work } direction ↔ direction = current := by
  constructor
  · intro hopen
    rcases hopen with hfresh | ⟨_, hactive⟩
    · cases hfresh
    · cases hactive
      rfl
  · rintro rfl
    exact .inr ⟨work, rfl⟩

@[simp] theorem not_isOpen_finalized {tag : Bytes} :
    ¬ IsOpen { session with tag, progress := .finalized } direction := by
  rintro (hfresh | ⟨_, hactive⟩) <;> contradiction

@[simp] theorem not_isOpen_poisoned :
    ¬ IsOpen { session with progress := .poisoned } direction := by
  rintro (hfresh | ⟨_, hactive⟩) <;> contradiction

theorem state_eq_poisoned_iff : session.state = .poisoned ↔ session.progress = .poisoned := by
  unfold state Progress.state
  cases session.progress with
  | active direction work => cases direction <;> simp [Direction.state]
  | _ => simp

/-- An empty tag is none. -/
theorem tag?_eq_some_iff {given : Bytes} (hgiven : given ≠ []) :
    session.tag? = some given ↔ session.tag = given := by
  unfold tag?
  split
  next hempty =>
    rw [List.isEmpty_iff] at hempty
    simp [hempty, hgiven.symm]
  next => rw [Option.some.injEq]

theorem ne_nil_of_tag? {given : Bytes} (hgiven : session.tag? = some given) : given ≠ [] := by
  unfold tag? at hgiven
  split at hgiven
  next => cases hgiven
  next hne =>
    cases hgiven
    exact fun hnil ↦ hne (List.isEmpty_iff.mpr hnil)

/-! ## The effects -/

/-- What a call in a direction can do, with its answer and the session after it. Only a call that
`ends` the session can finalize it, and only one that does not can leave it open. -/
inductive Effect (session : Session) (direction : Direction) :
    (ends : Bool) → Except CipherError Bytes → Session → Prop
  | refused {ends : Bool} {error : CipherError}
      (henter : session.progress.enter session.machine direction = .error error) :
      Effect session direction ends (.error error) session
  | failed {ends : Bool} {error : CipherError} (hopen : session.IsOpen direction)
      (herror : error.severity = .failure) :
      Effect session direction ends (.error error) { session with progress := .poisoned }
  | mistaken {ends : Bool} {error : CipherError} {work : session.mode.Work}
      (hopen : session.IsOpen direction) (herror : error.severity = .mistake) :
      Effect session direction ends (.error error)
        { session with progress := .active direction work }
  | fed {output : Bytes} {work : session.mode.Work} (hopen : session.IsOpen direction) :
      Effect session direction false (.ok output)
        { session with progress := .active direction work }
  | ended {output tag : Bytes} (hopen : session.IsOpen direction) :
      Effect session direction true (.ok output) { session with tag, progress := .finalized }

section Effect

variable {ends : Bool} {answer : Except CipherError Bytes} {next : Session} {other : Direction}

/-- What a session was made with. -/
def made (session : Session) : (mode : Mode) × Aes.Key × BitVec mode.ivBits :=
  ⟨session.mode, session.key, session.iv⟩

theorem Effect.made_eq (heffect : session.Effect direction ends answer next) :
    next.made = session.made := by
  cases heffect <;> rfl

/-- Only a session that is open in the direction answers. -/
theorem Effect.isOpen_of_isOk (heffect : session.Effect direction ends answer next)
    (hok : answer.isOk) : session.IsOpen direction := by
  cases heffect with
  | refused => exact absurd hok Bool.false_ne_true
  | failed hopen => exact hopen
  | mistaken hopen => exact hopen
  | fed hopen => exact hopen
  | ended hopen => exact hopen

/-- A call opens a session in no direction in which it was not open before. -/
theorem Effect.isOpen_of_isOpen (heffect : session.Effect direction ends answer next)
    (hnext : next.IsOpen other) : session.IsOpen other := by
  cases heffect with
  | refused => exact hnext
  | failed => exact absurd hnext not_isOpen_poisoned
  | mistaken hopen => exact isOpen_active.mp hnext ▸ hopen
  | fed hopen => exact isOpen_active.mp hnext ▸ hopen
  | ended => exact absurd hnext not_isOpen_finalized

/-- A call in one direction closes the other, or it changes nothing. -/
theorem Effect.eq_of_isOpen (heffect : session.Effect direction ends answer next)
    (hother : other ≠ direction) (hnext : next.IsOpen other) : next = session := by
  cases heffect with
  | refused => rfl
  | failed => exact absurd hnext not_isOpen_poisoned
  | mistaken => exact absurd (isOpen_active.mp hnext) hother
  | fed => exact absurd (isOpen_active.mp hnext) hother
  | ended => exact absurd hnext not_isOpen_finalized

/-- After an answer the session is open in the direction of the call only, and not even there if
the call has ended it. -/
theorem Effect.of_isOpen_of_isOk (heffect : session.Effect direction ends answer next)
    (hok : answer.isOk) (hnext : next.IsOpen other) : other = direction ∧ ends = false := by
  cases heffect with
  | refused => exact absurd hok Bool.false_ne_true
  | failed => exact absurd hok Bool.false_ne_true
  | mistaken => exact absurd hok Bool.false_ne_true
  | fed => exact ⟨isOpen_active.mp hnext, rfl⟩
  | ended => exact absurd hnext not_isOpen_finalized

/-- A refusal changes nothing. -/
theorem Effect.eq_of_refusal {error : CipherError}
    (heffect : session.Effect direction ends (.error error) next)
    (herror : error.severity = .refusal) : next = session := by
  cases heffect with
  | refused => rfl
  | failed _ hfailure => cases herror.symm.trans hfailure
  | mistaken _ hmistake => cases herror.symm.trans hmistake

/-- Only a call in the wrong state or a mistake leaves a session that is not poisoned. -/
theorem Effect.poisoned_of_error {error : CipherError}
    (heffect : session.Effect direction ends (.error error) next)
    (herror : error.severity = .failure ∨ error = .poisoned) : next.progress = .poisoned := by
  cases heffect with
  | refused henter =>
      rcases herror with hfailure | hpoisoned
      · cases hfailure.symm.trans (severity_of_enter henter)
      · rw [hpoisoned] at henter
        exact progress_of_enter henter
  | failed => rfl
  | mistaken _ hmistake =>
      rcases herror with hfailure | hpoisoned
      · cases hfailure.symm.trans hmistake
      · rw [hpoisoned] at hmistake
        cases hmistake

/-- A poisoned session says so and stays as it is. -/
theorem Effect.of_poisoned (heffect : session.Effect direction ends answer next)
    (hpoisoned : session.progress = .poisoned) :
    answer = .error .poisoned ∧ next = session := by
  have hclosed : ¬ session.IsOpen direction := by
    intro hopen
    rcases hopen with hfresh | ⟨_, hactive⟩
    · cases hpoisoned.symm.trans hfresh
    · cases hpoisoned.symm.trans hactive
  cases heffect with
  | refused henter =>
      rw [hpoisoned, Progress.enter] at henter
      cases henter
      exact ⟨rfl, rfl⟩
  | failed hopen => exact absurd hopen hclosed
  | mistaken hopen => exact absurd hopen hclosed
  | fed hopen => exact absurd hopen hclosed
  | ended hopen => exact absurd hopen hclosed

end Effect

/-! ## Calls have effects -/

theorem effect_feed (session : Session) (direction : Direction) (data : Bytes) :
    session.Effect direction false (session.feed direction data).1
      (session.feed direction data).2 := by
  cases henter : session.progress.enter session.machine direction with
  | error error =>
      simp only [feed, henter]
      exact .refused henter
  | ok work =>
      rw [feed_of_enter henter]
      cases habsorb : session.machine.absorb direction work data with
      | error error => exact .failed (isOpen_of_enter henter) (session.reports.absorb habsorb)
      | ok fed => exact .fed (isOpen_of_enter henter)

theorem effect_finalize (session : Session) (direction : Direction) :
    session.Effect direction true (session.finalize direction).1
      (session.finalize direction).2 := by
  cases henter : session.progress.enter session.machine direction with
  | error error =>
      simp only [finalize, henter]
      exact .refused henter
  | ok work =>
      have hreports := session.reports.conclude direction work session.tag
      simp only [finalize, henter]
      cases hconclude : session.machine.conclude direction work session.tag with
      | done output tag => exact .ended (isOpen_of_enter henter)
      | retry error =>
          rw [hconclude] at hreports
          exact .mistaken (isOpen_of_enter henter) hreports
      | broken error =>
          rw [hconclude] at hreports
          exact .failed (isOpen_of_enter henter) hreports

/-- Feeding and then ending has the effect of ending, or the first of the two fails. -/
theorem effect_process (session : Session) (direction : Direction) (data : Bytes) :
    session.Effect direction true (session.process direction data).1
      (session.process direction data).2 := by
  rw [process_eq_followedBy]
  have hfeed := session.effect_feed direction data
  generalize session.feed direction data = fed at hfeed
  obtain ⟨answer, reached⟩ := fed
  cases hfeed with
  | refused henter => exact .refused henter
  | failed hopen herror => exact .failed hopen herror
  | mistaken hopen herror => exact .mistaken hopen herror
  | @fed head work hopen =>
      simp only [followedBy]
      have hend := effect_finalize { session with progress := .active direction work } direction
      generalize finalize direction { session with progress := .active direction work } = ended
        at hend
      obtain ⟨answer, reached⟩ := ended
      cases hend with
      | refused henter => exact absurd (.inr ⟨work, rfl⟩) (not_isOpen_of_enter henter)
      | failed _ herror => exact .failed hopen herror
      | mistaken _ herror => exact .mistaken hopen herror
      | ended _ => exact .ended hopen

/-- The direction of an operation that feeds or ends the session. -/
def Operation.direction? : Operation → Option Direction
  | .feed direction _ | .finalize direction | .process direction _ => some direction
  | .reset | .setTag _ => none

/-- Whether an operation ends the session. -/
def Operation.ends : Operation → Bool
  | .finalize _ | .process _ _ => true
  | .feed _ _ | .reset | .setTag _ => false

/-- Every operation in a direction has one of the effects. -/
theorem effect_step (session : Session) {operation : Operation}
    (hdirection : operation.direction? = some direction) :
    session.Effect direction operation.ends (session.step operation).1
      (session.step operation).2 := by
  cases operation with
  | feed => cases hdirection; exact session.effect_feed _ _
  | finalize => cases hdirection; exact session.effect_finalize _
  | process => cases hdirection; exact session.effect_process _ _
  | reset => cases hdirection
  | setTag => cases hdirection

theorem Operation.exists_direction?_of_ends {operation : Operation} (hends : operation.ends) :
    ∃ direction, operation.direction? = some direction := by
  cases operation with
  | finalize direction => exact ⟨direction, rfl⟩
  | process direction _ => exact ⟨direction, rfl⟩
  | _ => cases hends

/-- Any other operation resets the session or touches nothing but its tag. -/
theorem step_of_direction?_eq_none (session : Session) {operation : Operation}
    (hnone : operation.direction? = none) :
    (session.step operation).1 = .ok [] ∧
      (operation = .reset ∨ ∃ tag, (session.step operation).2 = { session with tag }) := by
  cases operation with
  | reset => exact ⟨rfl, .inl rfl⟩
  | setTag tag =>
      refine ⟨rfl, .inr ?_⟩
      simp only [step, setTag]
      split
      next => exact ⟨tag, rfl⟩
      next => exact ⟨session.tag, rfl⟩
  | _ => cases hnone

/-- So only operations in a direction fail. -/
theorem effect_of_step_error {operation : Operation} {error : CipherError} {next : Session}
    (hstep : session.step operation = (.error error, next)) :
    ∃ direction, session.Effect direction operation.ends (.error error) next := by
  cases hdirection : operation.direction? with
  | some direction =>
      have heffect := session.effect_step hdirection
      rw [hstep] at heffect
      exact ⟨direction, heffect⟩
  | none =>
      have hanswer := (session.step_of_direction?_eq_none hdirection).1
      rw [hstep] at hanswer
      cases hanswer

end Session

end SealedStore

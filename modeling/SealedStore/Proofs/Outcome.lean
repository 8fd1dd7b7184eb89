import SealedStore.Facility

/-!
# When a chain of steps succeeds

A computation that stops at the first failure succeeds exactly if each of its steps does. The same
is said here of plain results and of actions on the facility.
-/

namespace SealedStore

namespace Outcome

variable {ε ε' α β : Type}

theorem bind_eq_ok_iff {first : Except ε α} {next : α → Except ε β} {result : β} :
    (first >>= next) = .ok result ↔ ∃ value, first = .ok value ∧ next value = .ok result := by
  cases first with
  | error error => simp [bind, Except.bind]
  | ok value => simp [bind, Except.bind]

theorem bind_eq_error_iff {first : Except ε α} {next : α → Except ε β} {error : ε} :
    (first >>= next) = .error error ↔
      first = .error error ∨ ∃ value, first = .ok value ∧ next value = .error error := by
  cases first with
  | error error => simp [bind, Except.bind]
  | ok value => simp [bind, Except.bind]

/-- A check and what comes after it. -/
theorem check_bind_eq_ok_iff {check : Except ε Unit} {next : Unit → Except ε β} {result : β} :
    (check >>= next) = .ok result ↔ check = .ok () ∧ next () = .ok result := by
  cases check with
  | error error => simp [bind, Except.bind]
  | ok value => simp [bind, Except.bind]

theorem map_eq_ok_iff {result : Except ε α} {change : α → β} {changed : β} :
    result.map change = .ok changed ↔ ∃ value, result = .ok value ∧ change value = changed := by
  cases result <;> simp [Except.map]

theorem discard_eq_ok_iff {result : Except ε α} :
    discard result = .ok () ↔ ∃ value, result = .ok value := by
  cases result <;> simp [discard, Functor.mapConst, Except.map]

theorem map_eq_error_iff {result : Except ε α} {change : α → β} {error : ε} :
    result.map change = .error error ↔ result = .error error := by
  cases result <;> simp [Except.map]

theorem mapError_eq_error_iff {result : Except ε α} {rename : ε → ε'} {renamed : ε'} :
    result.mapError rename = .error renamed ↔
      ∃ error, result = .error error ∧ rename error = renamed := by
  cases result with
  | error error =>
      show Except.error (rename error) = Except.error renamed ↔ _
      simp
  | ok found =>
      show Except.ok found = Except.error renamed ↔ _
      simp

@[simp] theorem mapError_eq_ok_iff {result : Except ε α} {rename : ε → ε'} {value : α} :
    result.mapError rename = .ok value ↔ result = .ok value := by
  cases result with
  | error error =>
      show Except.error (rename error) = Except.ok value ↔ Except.error error = Except.ok value
      simp
  | ok found =>
      show Except.ok found = Except.ok value ↔ Except.ok found = Except.ok value
      rw [Except.ok.injEq, Except.ok.injEq]

end Outcome

namespace Action

variable {ε ε' α β : Type} {facility next : Facility}

theorem bind_apply (first : Action ε α) (rest : α → Action ε β) (facility : Facility) :
    (first >>= rest) facility =
      match first facility with
      | (.ok value, between) => rest value between
      | (.error error, between) => (.error error, between) := by
  simp only [bind, ExceptT.bind, ExceptT.mk, StateT.bind]
  rcases first facility with ⟨value | value, between⟩ <;> rfl

theorem bind_eq_ok_iff {first : Action ε α} {rest : α → Action ε β} {result : β} :
    (first >>= rest) facility = (.ok result, next) ↔
      ∃ value between, first facility = (.ok value, between) ∧
        rest value between = (.ok result, next) := by
  rw [bind_apply]
  rcases first facility with ⟨error | value, between⟩
  · constructor
    · intro hfailed
      cases hfailed
    · intro hsteps
      obtain ⟨value, other, hfirst, _⟩ := hsteps
      cases hfirst
  · constructor
    · exact fun hrest ↦ ⟨value, between, rfl, hrest⟩
    · intro hsteps
      obtain ⟨_, _, hfirst, hrest⟩ := hsteps
      cases hfirst
      exact hrest

/-- A chain fails where one of its steps does, and goes no further. -/
theorem bind_eq_error_iff {first : Action ε α} {rest : α → Action ε β} {error : ε} :
    (first >>= rest) facility = (.error error, next) ↔
      first facility = (.error error, next) ∨
        ∃ value between, first facility = (.ok value, between) ∧
          rest value between = (.error error, next) := by
  rw [bind_apply]
  rcases first facility with ⟨failure | value, between⟩
  · constructor
    · intro hfailed
      cases hfailed
      exact .inl rfl
    · rintro (hfirst | ⟨_, _, hfirst, _⟩)
      · cases hfirst
        rfl
      · cases hfirst
  · constructor
    · exact fun hrest ↦ .inr ⟨value, between, rfl, hrest⟩
    · rintro (hfirst | ⟨_, _, hfirst, hrest⟩)
      · cases hfirst
      · cases hfirst
        exact hrest

theorem mapError_eq_ok_iff {action : Action ε α} {rename : ε → ε'} {value : α} :
    action.mapError rename facility = (.ok value, next) ↔ action facility = (.ok value, next) := by
  show ((action facility).1.mapError rename, (action facility).2) = (.ok value, next) ↔ _
  rw [Prod.ext_iff, Prod.ext_iff, Outcome.mapError_eq_ok_iff]

theorem mapError_eq_error_iff {action : Action ε α} {rename : ε → ε'} {renamed : ε'} :
    action.mapError rename facility = (.error renamed, next) ↔
      ∃ error, action facility = (.error error, next) ∧ rename error = renamed := by
  show ((action facility).1.mapError rename, (action facility).2) = (.error renamed, next) ↔ _
  rw [Prod.ext_iff, Outcome.mapError_eq_error_iff]
  constructor
  · intro hrenamed
    obtain ⟨⟨error, herror, hrename⟩, hnext⟩ := hrenamed
    exact ⟨error, Prod.ext herror hnext, hrename⟩
  · intro hfailed
    obtain ⟨error, haction, hrename⟩ := hfailed
    rw [haction]
    exact ⟨⟨error, rfl, hrename⟩, rfl⟩

theorem pure_eq_ok_iff {value result : α} :
    (pure value : Action ε α) facility = (.ok result, next) ↔ value = result ∧ facility = next := by
  show (Except.ok value, facility) = (Except.ok result, next) ↔ _
  simp

theorem liftExcept_eq_ok_iff {value : Except ε α} {result : α} :
    (liftExcept value : Action ε α) facility = (.ok result, next) ↔
      value = .ok result ∧ facility = next := by
  cases value with
  | error error =>
    show (Except.error error, facility) = (Except.ok result, next) ↔ _
    simp
  | ok value =>
    show (Except.ok value, facility) = (Except.ok result, next) ↔ _
    simp

theorem liftExcept_eq_error_iff {value : Except ε α} {error : ε} :
    (liftExcept value : Action ε α) facility = (.error error, next) ↔
      value = .error error ∧ facility = next := by
  cases value with
  | error failure =>
    show (Except.error failure, facility) = (Except.error error, next) ↔ _
    simp
  | ok value =>
    show (Except.ok value, facility) = (Except.error error, next) ↔ _
    simp

theorem get_eq_ok_iff {result : Facility} :
    (get : Action ε Facility) facility = (.ok result, next) ↔
      facility = result ∧ facility = next := by
  show (Except.ok facility, facility) = (Except.ok result, next) ↔ _
  simp

end Action

end SealedStore

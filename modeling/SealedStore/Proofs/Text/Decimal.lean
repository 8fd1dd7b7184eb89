import SealedStore.Text.Decimal

/-!
# What is read as a number

Reading gives the number that the digits spell, if it is within the bound (`read_eq_ok_iff`). It is
enough to look at the whole number, because the numbers on the way to it are no larger.
-/

namespace SealedStore.Decimal

variable {bound value number : Nat} {chars : List Char}

/-- The number that decimal digits go on to spell after `value`. -/
def numeral (value : Nat) (digits : List Nat) : Nat :=
  digits.foldl (fun number digit ↦ number * 10 + digit) value

/-- The characters spell the number: at least one digit, after at most one plus sign. -/
def Spells (chars : List Char) (number : Nat) : Prop :=
  ∃ sign rest digits, chars = sign ++ rest ∧ (sign = [] ∨ sign = ['+']) ∧ rest ≠ [] ∧
    digits.map some = rest.map digit? ∧ numeral 0 digits = number

theorem numeral_cons (value digit : Nat) (rest : List Nat) :
    numeral value (digit :: rest) = numeral (value * 10 + digit) rest :=
  rfl

theorem le_numeral (value : Nat) (digits : List Nat) : value ≤ numeral value digits := by
  induction digits generalizing value with
  | nil => exact Nat.le_refl value
  | cons digit rest ih =>
      have hrest := ih (value * 10 + digit)
      rw [numeral_cons]
      omega

theorem readDigits_eq_ok_iff (hvalue : value ≤ bound) :
    readDigits bound value chars = .ok number ↔
      ∃ digits, digits.map some = chars.map digit? ∧ numeral value digits = number ∧
        number ≤ bound := by
  induction chars generalizing value with
  | nil =>
      rw [readDigits, Except.ok.injEq]
      constructor
      · rintro rfl
        exact ⟨[], rfl, rfl, hvalue⟩
      · rintro ⟨digits, hdigits, rfl, -⟩
        rw [List.map_eq_nil_iff.mp hdigits]
        rfl
  | cons char rest ih =>
      rw [readDigits]
      constructor
      · intro hread
        split at hread
        next => cases hread
        next digit hdigit =>
          split at hread
          next hle =>
            obtain ⟨digits, hdigits, hnumber⟩ := (ih hle).mp hread
            refine ⟨digit :: digits, ?_, hnumber⟩
            rw [List.map_cons, List.map_cons, hdigit, hdigits]
          next => cases hread
      · rintro ⟨digits, hdigits, rfl, hbound⟩
        obtain ⟨digit, others, rfl, hdigit, hothers⟩ := List.map_eq_cons_iff.mp hdigits
        have hle : value * 10 + digit ≤ bound := Nat.le_trans (le_numeral _ others) hbound
        rw [← hdigit]
        dsimp only
        rw [if_pos hle]
        exact (ih hle).mpr ⟨others, hothers, rfl, hbound⟩

theorem read_of_ne_plus {first : Char} {others : List Char} (hplus : first ≠ '+') :
    read bound (first :: others) = readDigits bound 0 (first :: others) := by
  unfold read
  split
  next hchars => cases hchars
  next hchars =>
    cases hchars
    exact absurd rfl hplus
  next hchars =>
    cases hchars
    exact absurd rfl hplus
  next => rfl

/-- A number is read from what spells it within the bound, and from nothing else. -/
theorem read_eq_ok_iff : read bound chars = .ok number ↔ Spells chars number ∧ number ≤ bound := by
  constructor
  · intro hread
    unfold read at hread
    split at hread
    next => cases hread
    next => cases hread
    next rest hplus =>
      obtain ⟨digits, hdigits, hnumeral, hbound⟩ :=
        (readDigits_eq_ok_iff (Nat.zero_le bound)).mp hread
      exact ⟨⟨['+'], rest, digits, rfl, .inr rfl, fun hnil ↦ hplus (hnil ▸ rfl), hdigits, hnumeral⟩,
        hbound⟩
    next hnil _ _ =>
      obtain ⟨digits, hdigits, hnumeral, hbound⟩ :=
        (readDigits_eq_ok_iff (Nat.zero_le bound)).mp hread
      exact ⟨⟨[], chars, digits, rfl, .inl rfl, hnil, hdigits, hnumeral⟩, hbound⟩
  · rintro ⟨⟨sign, rest, digits, rfl, hsign, hrest, hdigits, hnumeral⟩, hbound⟩
    have hread := (readDigits_eq_ok_iff (Nat.zero_le bound)).mpr ⟨digits, hdigits, hnumeral, hbound⟩
    obtain ⟨first, others, rfl⟩ := List.exists_cons_of_ne_nil hrest
    rcases hsign with rfl | rfl
    · obtain ⟨digit, _, -, hdigit, -⟩ := List.map_eq_cons_iff.mp hdigits
      -- The plus sign is no digit.
      have hplus : first ≠ '+' := by
        rintro rfl
        cases hdigit
      rwa [List.nil_append, read_of_ne_plus hplus]
    · exact hread

end SealedStore.Decimal

import Mathlib.Data.List.DropRight
import SealedStore.Text.Blank

/-!
# What trimming leaves of a text

A text that neither begins nor ends with a blank is its own trimming (`trimList_eq_self`), and of a
blank text nothing is left (`trim_eq_empty_iff`).
-/

namespace SealedStore.Blank

theorem dropWhile_isBlank {chars : List Char} (hfirst : ∀ char ∈ chars.head?, ¬ isBlank char) :
    chars.dropWhile isBlank = chars := by
  cases chars with
  | nil => rfl
  | cons char rest => exact List.dropWhile_cons_of_neg (hfirst char rfl)

theorem trimList_eq_self {chars : List Char} (hfirst : ∀ char ∈ chars.head?, ¬ isBlank char)
    (hlast : ∀ char ∈ chars.getLast?, ¬ isBlank char) : trimList chars = chars := by
  rw [trimList, dropWhile_isBlank hfirst, dropWhile_isBlank (by rwa [List.head?_reverse]),
    List.reverse_reverse]

/-- A text without blanks is its own trimming. -/
theorem trim_eq_self {text : String} (hblank : ∀ char ∈ text.toList, ¬ isBlank char) :
    trim text = text := by
  rw [trim, trimList_eq_self (fun char hchar ↦ hblank char (List.mem_of_head? hchar))
    (fun char hchar ↦ hblank char (List.mem_of_getLast? hchar)), String.ofList_toList]

theorem trimList_eq_nil_iff {chars : List Char} :
    trimList chars = [] ↔ ∀ char ∈ chars, isBlank char := by
  rw [show trimList chars = (chars.dropWhile isBlank).rdropWhile isBlank from rfl,
    List.rdropWhile_eq_nil_iff, ← List.dropWhile_eq_nil_iff, List.dropWhile_idempotent,
    List.dropWhile_eq_nil_iff]

/-- Nothing is left of a text exactly if there are only blanks in it. -/
theorem trim_eq_empty_iff {text : String} : trim text = "" ↔ isBlankText text := by
  rw [trim, String.ofList_eq_empty_iff, trimList_eq_nil_iff, isBlankText, List.all_eq_true]

end SealedStore.Blank

import SealedStore.Proofs.Text.Blank
import SealedStore.Proofs.Text.JsonObject.Exact

/-!
# JSON objects read back what they write

Each writer writes a spelling of the production of the same name: a character (`element_escape`), a
string, a member, the members. So the text of a map spells its entries (`object_render`), and it is
read as that map: `parse?_render`.
-/

namespace SealedStore.JsonObject

theorem hexDigit_hexDigit : ∀ {value : Nat}, value < 16 → HexDigit (hexDigit value) value := by
  decide

/-- The digits of a code below 256. -/
theorem hexUnit_hexDigit {code : Nat} (hcode : code < 256) :
    HexUnit ['0', '0', hexDigit (code / 16), hexDigit (code % 16)] code := by
  have hzero : HexDigit '0' 0 := .inl rfl
  have hnumber : 0x1000 * 0 + 0x100 * 0 + 0x10 * (code / 16) + code % 16 = code := by omega
  have hunit := HexUnit.digits hzero hzero (hexDigit_hexDigit (show code / 16 < 16 by omega))
    (hexDigit_hexDigit (show code % 16 < 16 by omega))
  rwa [hnumber] at hunit

/-- A character is written as it may stand inside a string. -/
theorem element_escape (char : Char) : Element (escape char) char := by
  unfold escape
  split
  -- Escapes by letter stand in the grammar: the last case is that of all other characters.
  case h_8 hquote hbackslash _ _ _ _ _ =>
    split
    next hcontrol => exact .number (hexUnit_hexDigit (by omega))
    next hcontrol => exact .literal (Nat.not_lt.mp hcontrol) hquote hbackslash
  all_goals exact .short (by constructor)

theorem inside_flatMap_escape (chars : List Char) : Inside (chars.flatMap escape) chars := by
  induction chars with
  | nil => exact .nil
  | cons char others ih => exact .cons (element_escape char) ih

theorem quoted_renderString (text : String) : Quoted (renderString text) text :=
  .quotes (inside_flatMap_escape text.toList)

theorem member_renderMember (key value : String) :
    Member (renderMember key value) (key, value) := by
  have hnone : Space [] := List.forall_mem_nil _
  have hmember := Member.colon (quoted_renderString key) hnone hnone (quoted_renderString value)
  rwa [List.append_nil, List.append_assoc] at hmember

theorem members_renderMembers (head : String × String) (others : List (String × String)) :
    Members (renderMembers (head :: others)) (head :: others) := by
  have hnone : Space [] := List.forall_mem_nil _
  induction others generalizing head with
  | nil =>
      have hlast := Members.last hnone (member_renderMember head.1 head.2) hnone
      rwa [List.append_nil] at hlast
  | cons second later ih =>
      have hcomma := Members.comma hnone (member_renderMember head.1 head.2) hnone (ih second)
      rwa [List.append_nil] at hcomma

/-- The text of a map spells its entries. -/
theorem object_render (map : TextMap String) : Object (render map).toList map.entries := by
  rw [render, String.toList_ofList]
  cases map.entries with
  | nil => exact .empty (List.forall_mem_nil _)
  | cons head others => exact .braces (members_renderMembers head others)

/-- The text of a map neither begins nor ends with a blank: braces enclose it. -/
theorem trimList_render (inner : List Char) :
    Blank.trimList ('\x7b' :: inner ++ ['\x7d']) = '\x7b' :: inner ++ ['\x7d'] := by
  refine Blank.trimList_eq_self (fun char hchar ↦ ?_) (fun char hchar ↦ ?_)
  · cases hchar
    decide
  · rw [List.getLast?_concat] at hchar
    cases hchar
    decide

/-- So it is its own trimming. -/
@[simp] theorem trim_render (map : TextMap String) : Blank.trim (render map) = render map := by
  rw [Blank.trim, render, String.toList_ofList, trimList_render]

/-- The text of a map is read as that map, whatever characters its keys and texts have. -/
theorem parse?_render (map : TextMap String) : parse? (render map) = some map := by
  have htrim : Blank.trimList (render map).toList = (render map).toList := by
    rw [render, String.toList_ofList]
    exact trimList_render _
  refine parse?_eq_some_iff.mpr ⟨map.entries, ?_, (TextMap.ofList_entries map).symm⟩
  rw [htrim]
  exact object_render map

end SealedStore.JsonObject

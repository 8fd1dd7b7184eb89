import Mathlib.Data.List.Forall2
import SealedStore.Proofs.Text.JsonObject

/-!
# The canonical spelling of a map

Of all the spellings of a map one is canonical, and it is said here without a writer: its tokens
stand without space between them, its members come in increasing order of their keys, and each
character is spelled in one way only. The texts of maps are the canonical ones and no others
(`canonical_iff`).
-/

namespace SealedStore.JsonObject

/-- The numbers of the characters. -/
def codePoints (text : String) : List Nat :=
  text.toList.map Char.toNat

/-- The order of texts is that of their code points. -/
theorem codePoints_lt_iff {left right : String} :
    codePoints left < codePoints right ↔ left < right := by
  have hmono {left right : String} (hlt : left < right) : codePoints left < codePoints right :=
    List.map_lt (fun _ _ hchar ↦ hchar) hlt
  refine ⟨fun hpoints ↦ Decidable.not_not.mp fun hge ↦ ?_, hmono⟩
  have hle : right ≤ left := String.not_lt.mp hge
  rcases Decidable.em (right < left) with hlt | heq
  · exact List.lt_asymm hpoints (hmono hlt)
  · cases String.le_antisymm hle (String.not_lt.mp heq)
    exact List.lt_irrefl _ hpoints

/-- The one spelling of a character inside a string. What a string cannot hold as it is goes by a
letter if there is one for it, and else by its number, with small digits. -/
inductive CompactElement : List Char → Char → Prop
  | literal {char : Char} (hcontrol : 0x20 ≤ char.toNat) (hquote : char ≠ '"')
      (hbackslash : char ≠ '\\') : CompactElement [char] char
  | short {letter char : Char} (hshort : ShortEscape letter char) (hslash : char ≠ '/') :
      CompactElement ['\\', letter] char
  | number {char high low : Char} (hcontrol : char.toNat < 0x20)
      (hletter : ∀ letter, ¬ ShortEscape letter char)
      (hhigh : "0123456789abcdef".toList[char.toNat / 16]? = some high)
      (hlow : "0123456789abcdef".toList[char.toNat % 16]? = some low) :
      CompactElement ['\\', 'u', '0', '0', high, low] char

/-- A string in its quotes, each of its characters in its one spelling. -/
def CompactQuoted (spelled : List Char) (text : String) : Prop :=
  ∃ pieces, List.Forall₂ CompactElement pieces text.toList ∧
    spelled = '"' :: pieces.flatten ++ ['"']

/-- A key and a value, with nothing but a colon between them. -/
def CompactMember (spelled : List Char) (member : String × String) : Prop :=
  ∃ key value, CompactQuoted key member.1 ∧ CompactQuoted value member.2 ∧
    spelled = key ++ ':' :: value

/-- The text has the members between its braces, with nothing but commas between them, and their
keys increase. -/
structure Canonical (text : String) (members : List (String × String)) : Prop where
  compact : ∃ pieces, List.Forall₂ CompactMember pieces members ∧
    text.toList = '\x7b' :: [','].intercalate pieces ++ ['\x7d']
  increasing : (members.map fun member ↦ codePoints member.1).Pairwise (· < ·)

/-! ## What is written -/

variable {spelled : List Char}

theorem getElem?_digits : ∀ {value : Nat}, value < 16 →
    "0123456789abcdef".toList[value]? = some (hexDigit value) := by
  decide

theorem compactElement_escape (char : Char) : CompactElement (escape char) char := by
  unfold escape
  split
  case h_8 hquote hbackslash hbackspace hformFeed hlineFeed hreturn htab =>
    split
    next hcontrol =>
      refine .number hcontrol (fun letter hletter ↦ ?_) (getElem?_digits (by omega))
        (getElem?_digits (by omega))
      cases hletter <;> contradiction
    next hcontrol => exact .literal (Nat.not_lt.mp hcontrol) hquote hbackslash
  all_goals exact .short (by constructor) (by decide)

theorem CompactElement.eq_escape {char : Char} (helement : CompactElement spelled char) :
    spelled = escape char := by
  cases helement with
  | literal hcontrol hquote hbackslash =>
      unfold escape
      split
      case h_8 => rw [if_neg (Nat.not_lt.mpr hcontrol)]
      all_goals contradiction
  | short hshort hslash =>
      cases hshort with
      | slash => exact absurd rfl hslash
      | _ => rfl
  | number hcontrol hletter hhigh hlow =>
      have hhigh := (getElem?_digits (by omega)).symm.trans hhigh
      have hlow := (getElem?_digits (by omega)).symm.trans hlow
      unfold escape
      split
      case h_8 => rw [if_pos hcontrol, Option.some.inj hhigh, Option.some.inj hlow]
      all_goals exact absurd (by constructor) (hletter _)

theorem compactElement_iff (spelled : List Char) (char : Char) :
    CompactElement spelled char ↔ spelled = escape char :=
  ⟨CompactElement.eq_escape, fun heq ↦ heq ▸ compactElement_escape char⟩

/-- Where a relation is a function, a list of pieces is the list of the values. -/
theorem forall₂_iff_eq_map {α β : Type} {relation : α → β → Prop} {value : β → α}
    (hvalue : ∀ piece item, relation piece item ↔ piece = value item) {pieces : List α}
    {items : List β} : List.Forall₂ relation pieces items ↔ pieces = items.map value := by
  have hrelation : relation = fun piece item ↦ piece = value item := by
    funext piece item
    exact propext (hvalue piece item)
  rw [hrelation, ← List.forall₂_map_right_iff, List.forall₂_eq_eq_eq]

theorem compactQuoted_iff (spelled : List Char) (text : String) :
    CompactQuoted spelled text ↔ spelled = renderString text := by
  simp only [CompactQuoted, forall₂_iff_eq_map compactElement_iff, exists_eq_left, renderString,
    List.flatMap_def]

theorem compactMember_iff (spelled : List Char) (member : String × String) :
    CompactMember spelled member ↔ spelled = renderMember member.1 member.2 := by
  simp only [CompactMember, compactQuoted_iff, exists_and_left, exists_eq_left, renderMember]

theorem renderMembers_eq (members : List (String × String)) :
    renderMembers members =
      [','].intercalate (members.map fun member ↦ renderMember member.1 member.2) := by
  induction members with
  | nil => rfl
  | cons head rest ih =>
      cases rest with
      | nil => simp [renderMembers]
      | cons second others =>
          show renderMember head.1 head.2 ++ ',' :: renderMembers (second :: others) = _
          rw [ih]
          simp [List.intercalate]

/-- The canonical texts are those that maps are written as. -/
theorem canonical_iff {text : String} {members : List (String × String)} :
    Canonical text members ↔ ∃ map : TextMap String, members = map.entries ∧ text = render map := by
  constructor
  · rintro ⟨⟨pieces, hpieces, htext⟩, hincreasing⟩
    rw [List.pairwise_map] at hincreasing
    refine ⟨⟨members, hincreasing.imp codePoints_lt_iff.mp⟩, rfl, ?_⟩
    rw [render, renderMembers_eq, ← (forall₂_iff_eq_map compactMember_iff).mp hpieces, ← htext,
      String.ofList_toList]
  · rintro ⟨map, rfl, rfl⟩
    refine ⟨⟨_, (forall₂_iff_eq_map compactMember_iff).mpr rfl, ?_⟩, ?_⟩
    · rw [render, String.toList_ofList, renderMembers_eq]
    · rw [List.pairwise_map]
      exact map.sorted.imp codePoints_lt_iff.mpr

end SealedStore.JsonObject

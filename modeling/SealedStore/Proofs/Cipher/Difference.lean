import SealedStore.Proofs.Cipher.Cbc

/-!
# Byte strings that differ in places

Where two byte strings of one length differ is told by a kind of places outside of which they agree
(`Bytes.DifferInside`). If these are the places of one block, then all their blocks but one are the
same (`DifferInside.exists_blocks`); if they all lie in one part of a byte string, the other part is
as it was (`DifferInside.exists_append_left`, `DifferInside.exists_append_right`). A mask makes such
a difference at the places where it is not zero: `ChangesInside.differInside`.
-/

namespace SealedStore

/-- Lists of one length that differ in one place only are the same before and after it. -/
theorem exists_append_cons_of_getElem? {α : Type} {left right : List α} {index : Nat}
    (hlength : left.length = right.length) (hne : left ≠ right)
    (hsame : ∀ place, place ≠ index → left[place]? = right[place]?) :
    ∃ before first second after, left = before ++ first :: after ∧
      right = before ++ second :: after ∧ first ≠ second := by
  -- Behind the end there is nothing to differ in.
  have hindex : index < left.length := by
    refine Nat.lt_of_not_le fun hge ↦ hne (List.ext_getElem? fun place ↦ ?_)
    by_cases hplace : place = index
    · rw [hplace, List.getElem?_eq_none hge, List.getElem?_eq_none (hlength ▸ hge)]
    · exact hsame place hplace
  have hbefore : left.take index = right.take index := by
    refine List.ext_getElem? fun place ↦ ?_
    rw [List.getElem?_take, List.getElem?_take]
    split
    next hlow => exact hsame place (Nat.ne_of_lt hlow)
    next => rfl
  have hafter : left.drop (index + 1) = right.drop (index + 1) := by
    refine List.ext_getElem? fun place ↦ ?_
    rw [List.getElem?_drop, List.getElem?_drop]
    exact hsame _ (by omega)
  have hleft : left = left.take index ++ left[index] :: left.drop (index + 1) := by
    rw [List.getElem_cons_drop, List.take_append_drop]
  have hright : right = left.take index ++ right[index] :: left.drop (index + 1) := by
    rw [hbefore, hafter, List.getElem_cons_drop, List.take_append_drop]
  refine ⟨_, _, _, _, hleft, hright, fun heq ↦ hne ?_⟩
  rw [hleft, hright, heq]

namespace Bytes

theorem getElem?_pieces {size count index : Nat} {bytes : Bytes} (hindex : index < count) :
    (pieces size count bytes)[index]? = some ((bytes.drop (size * index)).take size) := by
  induction count generalizing index bytes with
  | zero => cases hindex
  | succ count ih =>
      cases index with
      | zero => rfl
      | succ index =>
          rw [pieces, List.getElem?_cons_succ, ih (Nat.lt_of_succ_lt_succ hindex), List.drop_drop,
            Nat.mul_succ, Nat.add_comm]

/-- A word depends on its own bytes. -/
theorem getElem?_words_congr {size index : Nat} {left right : Bytes}
    (hlength : left.length = right.length)
    (hsame : ∀ place < size, left[size * index + place]? = right[size * index + place]?) :
    (words size left)[index]? = (words size right)[index]? := by
  rw [words, words, List.getElem?_map, List.getElem?_map, hlength]
  by_cases hcount : index < right.length / size
  · have hpiece : (left.drop (size * index)).take size = (right.drop (size * index)).take size := by
      refine List.ext_getElem? fun place ↦ ?_
      rw [List.getElem?_take, List.getElem?_take, List.getElem?_drop, List.getElem?_drop]
      split
      next hplace => exact hsame place hplace
      next => rfl
    rw [getElem?_pieces hcount, getElem?_pieces hcount, hpiece]
  · rw [List.getElem?_eq_none (by rw [length_pieces]; omega),
      List.getElem?_eq_none (by rw [length_pieces]; omega)]

theorem dvd_length_padded (bytes : Bytes) : blockLength ∣ bytes.padded.length := by
  rw [padded, zeros, List.length_append, List.length_replicate]
  unfold blockLength
  omega

/-- Two byte strings of one length that differ, but only at places of some kind. -/
structure DifferInside (inside : Nat → Prop) (left right : Bytes) : Prop where
  length_eq : left.length = right.length
  ne : left ≠ right
  getElem?_eq : ∀ place, ¬ inside place → left[place]? = right[place]?

/-- The places of the block with an index. -/
def InBlock (index place : Nat) : Prop :=
  place / blockLength = index

namespace DifferInside

variable {inside wider : Nat → Prop} {index : Nat} {left right front last : Bytes}

theorem mono (hdiffer : DifferInside inside left right)
    (hwider : ∀ place, inside place → wider place) : DifferInside wider left right where
  length_eq := hdiffer.length_eq
  ne := hdiffer.ne
  getElem?_eq place hplace := hdiffer.getElem?_eq place fun hinside ↦ hplace (hwider place hinside)

theorem padded (hdiffer : DifferInside inside left right) :
    DifferInside inside left.padded right.padded where
  length_eq := by rw [Bytes.padded, Bytes.padded, List.length_append, List.length_append,
    hdiffer.length_eq]
  ne heq := by
    rw [Bytes.padded, Bytes.padded, hdiffer.length_eq] at heq
    exact hdiffer.ne (List.append_cancel_right heq)
  getElem?_eq place hplace := by
    rw [Bytes.padded, Bytes.padded, List.getElem?_append, List.getElem?_append,
      hdiffer.length_eq, hdiffer.getElem?_eq place hplace]

/-- Of whole blocks all but one are the same. -/
theorem exists_blocks (hdiffer : DifferInside (InBlock index) left right)
    (hwhole : blockLength ∣ left.length) :
    ∃ before first second after, left.blocks = before ++ first :: after ∧
      right.blocks = before ++ second :: after ∧ first ≠ second := by
  have hlength : left.blocks.length = right.blocks.length := by
    rw [length_blocks, length_blocks, hdiffer.length_eq]
  have hne : left.blocks ≠ right.blocks := by
    intro heq
    refine hdiffer.ne ?_
    calc left = ofWords left.blocks := (ofBlocks_blocks hwhole).symm
      _ = ofWords right.blocks := by rw [heq]
      _ = right := ofBlocks_blocks (hdiffer.length_eq ▸ hwhole)
  refine exists_append_cons_of_getElem? hlength hne fun other (hother : other ≠ index) ↦ ?_
  refine getElem?_words_congr hdiffer.length_eq fun place hplace ↦ ?_
  refine hdiffer.getElem?_eq _ fun hinside ↦ hother ?_
  rw [← hinside, Nat.mul_add_div (by decide), Nat.div_eq_of_lt hplace, Nat.add_zero]

/-- A change in the first part leaves the second as it is. -/
theorem exists_append_left (hdiffer : DifferInside inside left (front ++ last))
    (hfront : ∀ place, inside place → place < front.length) :
    ∃ other, left = other ++ last ∧ DifferInside inside other front := by
  have hlength := hdiffer.length_eq
  rw [List.length_append] at hlength
  have hlast : left.drop front.length = last := by
    refine List.ext_getElem? fun place ↦ ?_
    have hbehind : ¬ inside (front.length + place) := fun hinside ↦
      absurd (hfront _ hinside) (by omega)
    rw [List.getElem?_drop, hdiffer.getElem?_eq _ hbehind,
      List.getElem?_append_right (Nat.le_add_right _ _), Nat.add_sub_cancel_left]
  have hsplit : left = left.take front.length ++ last := by
    rw [← hlast, List.take_append_drop]
  refine ⟨left.take front.length, hsplit, by rw [List.length_take]; omega, ?_, ?_⟩
  · intro heq
    exact hdiffer.ne (by rw [hsplit, heq])
  · intro place hplace
    rw [List.getElem?_take]
    split
    next hlow => rw [hdiffer.getElem?_eq place hplace, List.getElem?_append_left hlow]
    next hhigh => rw [List.getElem?_eq_none (Nat.le_of_not_lt hhigh)]

/-- A change in the second part leaves the first as it is. -/
theorem exists_append_right (hdiffer : DifferInside inside left (front ++ last))
    (hlast : ∀ place, inside place → front.length ≤ place) :
    ∃ other, left = front ++ other ∧ other.length = last.length ∧ other ≠ last := by
  have hlength := hdiffer.length_eq
  rw [List.length_append] at hlength
  have hfront : left.take front.length = front := by
    refine List.ext_getElem? fun place ↦ ?_
    rw [List.getElem?_take]
    split
    next hlow =>
      rw [hdiffer.getElem?_eq _ fun hinside ↦ absurd (hlast _ hinside) (by omega),
        List.getElem?_append_left hlow]
    next hhigh => rw [List.getElem?_eq_none (Nat.le_of_not_lt hhigh)]
  have hsplit : left = front ++ left.drop front.length := by
    calc left = left.take front.length ++ left.drop front.length :=
          (List.take_append_drop front.length left).symm
      _ = front ++ left.drop front.length := by rw [hfront]
  refine ⟨left.drop front.length, hsplit, by rw [List.length_drop]; omega, fun heq ↦ ?_⟩
  exact hdiffer.ne (by rw [hsplit, heq])

end DifferInside

/-- A mask that changes something, but only at places of some kind. -/
structure ChangesInside (inside : Nat → Prop) (mask : Bytes) : Prop where
  exists_ne_zero : ∃ byte ∈ mask, byte ≠ 0
  inside_of_ne_zero : ∀ place byte, mask[place]? = some byte → byte ≠ 0 → inside place

/-- A byte is left as it is by a zero in the mask, and by nothing else. -/
theorem getElem?_xor_eq_iff {bytes mask : Bytes} {place : Nat} {byte : UInt8}
    (hplace : place < bytes.length) (hbyte : mask[place]? = some byte) :
    (bytes.xor mask)[place]? = bytes[place]? ↔ byte = 0 := by
  rw [xor, List.getElem?_zipWith, hbyte, List.getElem?_eq_getElem hplace]
  simp only [Option.some.injEq]
  constructor
  · intro hsame
    exact (UInt8.xor_right_inj _).mp (hsame.trans UInt8.xor_zero.symm)
  · rintro rfl
    exact UInt8.xor_zero

theorem ChangesInside.differInside {inside : Nat → Prop} {mask bytes : Bytes}
    (hchanges : ChangesInside inside mask) (hlength : mask.length = bytes.length) :
    DifferInside inside (bytes.xor mask) bytes where
  length_eq := by rw [xor, List.length_zipWith, hlength, Nat.min_self]
  ne heq := by
    obtain ⟨byte, hmem, hne⟩ := hchanges.exists_ne_zero
    obtain ⟨place, hplace⟩ := List.mem_iff_getElem?.mp hmem
    have hlow := (List.getElem?_eq_some_iff.mp hplace).1
    exact hne ((getElem?_xor_eq_iff (hlength ▸ hlow) hplace).mp (by rw [heq]))
  getElem?_eq place hplace := by
    by_cases hlow : place < bytes.length
    · have hbyte := List.getElem?_eq_getElem (hlength ▸ hlow)
      refine (getElem?_xor_eq_iff hlow hbyte).mpr (Decidable.not_not.mp fun hne ↦ ?_)
      exact hplace (hchanges.inside_of_ne_zero place _ hbyte hne)
    · rw [List.getElem?_eq_none (Nat.le_of_not_lt hlow), List.getElem?_eq_none]
      rw [xor, List.length_zipWith]
      omega

end Bytes

end SealedStore

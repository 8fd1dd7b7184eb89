import SealedStore.Bytes

/-!
# Blocks

A block is the 128-bit word that the cipher permutes; a semiblock, half of it, is the unit in which
keys are wrapped. A byte string of whole words is the same thing as the list of its words:
`ofWords_words` and `words_ofWords`.
-/

namespace SealedStore

/-- The unit of the block cipher: 16 bytes, read as a big-endian number. -/
abbrev Block := BitVec 128

/-- The unit of key wrapping: 8 bytes. -/
abbrev Semiblock := BitVec 64

/-- A block is 16 bytes long. -/
def blockLength : Nat := 16

/-- A semiblock is 8 bytes long. -/
def semiblockLength : Nat := 8

namespace Bytes

/-- The whole words of `size` bytes that a byte string begins with. -/
def words (size : Nat) (bytes : Bytes) : List (BitVec (8 * size)) :=
  (pieces size (bytes.length / size) bytes).map fun piece ↦ BitVec.ofNat (8 * size) (toNat piece)

/-- The words written one after the other. -/
def ofWords {width : Nat} (list : List (BitVec width)) : Bytes :=
  list.flatMap ofBits

/-- The whole blocks that a byte string begins with. -/
def blocks (bytes : Bytes) : List Block :=
  words blockLength bytes

/-- The whole semiblocks that a byte string begins with. -/
def semiblocks (bytes : Bytes) : List Semiblock :=
  words semiblockLength bytes

/-- The byte string followed by as few zero bytes as make it a whole number of blocks. -/
def padded (bytes : Bytes) : Bytes :=
  bytes ++ zeros ((blockLength - bytes.length % blockLength) % blockLength)

theorem length_pieces (size count : Nat) (bytes : Bytes) :
    (pieces size count bytes).length = count := by
  induction count generalizing bytes with
  | zero => rfl
  | succ count ih => simp [pieces, ih]

theorem length_words (size : Nat) (bytes : Bytes) :
    (words size bytes).length = bytes.length / size := by
  simp [words, length_pieces]

theorem length_ofWords {size : Nat} (list : List (BitVec (8 * size))) :
    (ofWords list).length = size * list.length := by
  induction list with
  | nil => simp [ofWords]
  | cons word rest ih =>
      simp only [ofWords, List.flatMap_cons, List.length_append, length_ofBits] at ih ⊢
      rw [ih, List.length_cons, Nat.mul_succ]
      omega

/-- A byte string of `count` whole pieces is its pieces written one after the other. -/
theorem flatten_pieces {size count : Nat} {bytes : Bytes} (hlength : bytes.length = size * count) :
    (pieces size count bytes).flatten = bytes := by
  induction count generalizing bytes with
  | zero => simp [pieces, List.eq_nil_of_length_eq_zero (by simpa using hlength)]
  | succ count ih =>
      rw [Nat.mul_succ] at hlength
      rw [pieces, List.flatten_cons, ih (by rw [List.length_drop]; omega), List.take_append_drop]

theorem length_of_mem_pieces {size count : Nat} {bytes piece : Bytes}
    (hlength : size * count ≤ bytes.length) (hpiece : piece ∈ pieces size count bytes) :
    piece.length = size := by
  induction count generalizing bytes with
  | zero => simp [pieces] at hpiece
  | succ count ih =>
      rw [Nat.mul_succ] at hlength
      rcases List.mem_cons.mp hpiece with rfl | hrest
      · rw [List.length_take]; omega
      · exact ih (by rw [List.length_drop]; omega) hrest

theorem ofBits_ofNat_toNat (bytes : Bytes) :
    ofBits (BitVec.ofNat (8 * bytes.length) (toNat bytes)) = bytes :=
  ofBits_of_toBits? (by simp [toBits?])

/-- A byte string of whole words is written back from its words. -/
theorem ofWords_words {size : Nat} {bytes : Bytes} (hsize : size ∣ bytes.length) :
    ofWords (words size bytes) = bytes := by
  have hlength : bytes.length = size * (bytes.length / size) := (Nat.mul_div_cancel' hsize).symm
  have hpiece : ∀ piece ∈ pieces size (bytes.length / size) bytes,
      ofBits (BitVec.ofNat (8 * size) (toNat piece)) = piece := by
    intro piece hmem
    have hsame := length_of_mem_pieces (Nat.le_of_eq hlength.symm) hmem
    subst hsame
    exact ofBits_ofNat_toNat piece
  rw [ofWords, words, List.flatMap_map, List.flatMap_def, List.map_congr_left hpiece, List.map_id']
  exact flatten_pieces hlength

/-- Words are read back from what they are written as. -/
theorem words_ofWords {size : Nat} (hsize : 0 < size) (list : List (BitVec (8 * size))) :
    words size (ofWords list) = list := by
  rw [words, length_ofWords, Nat.mul_div_cancel_left _ hsize]
  induction list with
  | nil => rfl
  | cons word rest ih =>
      have hword : (ofBits word).length = size := by rw [length_ofBits]; omega
      have hsplit : ofWords (word :: rest) = ofBits word ++ ofWords rest := rfl
      have hback := toBits?_ofBits word
      rw [toBits?, if_pos (by rw [hword])] at hback
      rw [List.length_cons, pieces, List.map_cons, hsplit, List.take_left' hword,
        List.drop_left' hword, ih, Option.some.inj hback]

end Bytes

end SealedStore

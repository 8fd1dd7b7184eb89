import SealedStore.Cipher.Keystream

/-!
# Masking

Adding the same keystream twice changes nothing (`mask_mask`). Byte `i` of the keystream depends on
`i` alone (`bytes_eq_map`), so data is masked in pieces as it is masked at once (`mask_append`).
-/

namespace SealedStore

theorem Bytes.xor_xor_right {data key : Bytes} (hlength : data.length ≤ key.length) :
    (data.xor key).xor key = data := by
  induction data generalizing key with
  | nil => rfl
  | cons byte rest ih =>
      cases key with
      | nil => simp at hlength
      | cons first others =>
          have hrest := @ih others (by simpa using hlength)
          simp only [xor, List.zipWith_cons_cons] at hrest ⊢
          rw [hrest, UInt8.xor_assoc, UInt8.xor_self, UInt8.xor_zero]

namespace Keystream

variable (block : Nat → Block) (offset : Nat)

/-- The keystream gives as many bytes as are asked for. -/
@[simp] theorem length_bytes (count : Nat) : (bytes block offset count).length = count := by
  unfold bytes
  generalize hfirst : offset / blockLength = first
  generalize hlast : (offset + count + (blockLength - 1)) / blockLength = last
  have hblocks := @Bytes.length_ofWords 16 ((List.range' first (last - first)).map block)
  rw [Bytes.ofWords, List.flatMap_map, List.length_map, List.length_range'] at hblocks
  rw [List.length_take, List.length_drop, hblocks]
  unfold blockLength at hfirst hlast ⊢
  omega

@[simp] theorem length_mask (data : Bytes) : (mask block offset data).length = data.length := by
  simp [mask, Bytes.xor]

/-- Masking twice changes nothing. -/
@[simp] theorem mask_mask (data : Bytes) : mask block offset (mask block offset data) = data := by
  rw [mask, length_mask]
  exact Bytes.xor_xor_right (by simp)

/-- The keystream byte at a position. -/
def byte (position : Nat) : UInt8 :=
  (Bytes.ofBits (block (position / blockLength))).getD (position % blockLength) 0

/-- A block of the keystream is the bytes at its positions. -/
theorem ofBits_block (index : Nat) :
    Bytes.ofBits (block index) =
      (List.range' (blockLength * index) blockLength).map (byte block) := by
  refine List.ext_getElem (by simp [blockLength]) fun i hleft hright ↦ ?_
  have hlt : i < blockLength := by simpa [blockLength] using hleft
  have hindex : (blockLength * index + i) / blockLength = index := by
    rw [Nat.mul_add_div (by decide), Nat.div_eq_of_lt hlt, Nat.add_zero]
  simp only [List.getElem_map, List.getElem_range', Nat.one_mul, byte]
  rw [hindex, Nat.mul_add_mod, Nat.mod_eq_of_lt hlt, List.getD_eq_getElem?_getD,
    List.getElem?_eq_getElem hleft, Option.getD_some]

/-- So are several blocks one after the other. -/
theorem flatMap_block (first count : Nat) :
    ((List.range' first count).flatMap fun index ↦ Bytes.ofBits (block index)) =
      (List.range' (blockLength * first) (blockLength * count)).map (byte block) := by
  induction count generalizing first with
  | zero => rfl
  | succ count ih =>
      rw [List.range'_succ, List.flatMap_cons, ih, ofBits_block, ← List.map_append,
        Nat.mul_succ, List.range'_append_1, Nat.mul_succ, Nat.add_comm]

/-- The keystream bytes from an offset on are those at its positions. -/
theorem bytes_eq_map (count : Nat) :
    bytes block offset count = (List.range' offset count).map (byte block) := by
  refine List.ext_getElem (by simp) fun i hleft hright ↦ ?_
  have hposition :
      blockLength * (offset / blockLength) + (offset % blockLength + i) = offset + i := by
    rw [← Nat.add_assoc, Nat.div_add_mod]
  simp only [bytes, flatMap_block, List.getElem_take, List.getElem_drop, List.getElem_map,
    List.getElem_range', Nat.one_mul, hposition]

/-- Data in two pieces is masked like the data at once. -/
theorem mask_append (left right : Bytes) :
    mask block offset (left ++ right) =
      mask block offset left ++ mask block (offset + left.length) right := by
  simp only [mask, Bytes.xor, bytes_eq_map, List.length_append, ← List.range'_append_1,
    List.map_append]
  exact List.zipWith_append (by simp)

/-- The keystream from a block on is the keystream of the blocks from there on. -/
theorem byte_add (first position : Nat) :
    byte block (blockLength * first + position) =
      byte (fun index ↦ block (first + index)) position := by
  rw [byte, byte, Nat.mul_add_div (by decide), Nat.mul_add_mod]

/-- Data is masked from a block on as from the beginning of the blocks from there on. -/
theorem mask_add (first : Nat) (data : Bytes) :
    mask block (blockLength * first + offset) data =
      mask (fun index ↦ block (first + index)) offset data := by
  rw [mask, mask, bytes_eq_map, bytes_eq_map]
  refine congrArg data.xor (List.ext_getElem (by simp) fun index _ _ ↦ ?_)
  rw [List.getElem_map, List.getElem_map, List.getElem_range', List.getElem_range', Nat.add_assoc,
    byte_add]

end Keystream

end SealedStore

import SealedStore.Proofs.Cipher.Ghash.Field

/-!
# A change of one block changes the hash

Hashing goes on by adding the next block and multiplying by the key. If the key is not zero, neither
step makes different values equal, so the hash of a list tells every block of it from any other in
the same place: `hash_ne`.
-/

namespace SealedStore.Ghash

variable {key left right : Block}

/-- Different values stay different when a block is hashed. -/
theorem multiply_xor_ne (hkey : key ≠ 0) (hne : left ≠ right) (block : Block) :
    multiply (left ^^^ block) key ≠ multiply (right ^^^ block) key := by
  intro heq
  exact hne ((BitVec.xor_left_inj block).mp (eq_of_multiply_eq hkey heq))

/-- They stay different over any more blocks. -/
theorem foldl_ne (hkey : key ≠ 0) (hne : left ≠ right) (blocks : List Block) :
    blocks.foldl (fun value block ↦ multiply (value ^^^ block) key) left ≠
      blocks.foldl (fun value block ↦ multiply (value ^^^ block) key) right := by
  induction blocks generalizing left right with
  | nil => exact hne
  | cons block rest ih => exact ih (multiply_xor_ne hkey hne block)

theorem hash_ne (hkey : key ≠ 0) (hne : left ≠ right) (before after : List Block) :
    hash key (before ++ left :: after) ≠ hash key (before ++ right :: after) := by
  rw [hash, hash, List.foldl_append, List.foldl_append, List.foldl_cons, List.foldl_cons]
  refine foldl_ne hkey ?_ after
  rw [BitVec.xor_comm _ left, BitVec.xor_comm _ right]
  exact multiply_xor_ne hkey hne _

end SealedStore.Ghash

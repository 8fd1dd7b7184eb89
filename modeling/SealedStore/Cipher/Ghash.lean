import SealedStore.Block

/-!
# The universal hash of Galois counter mode

A block is read as a polynomial of degree below 128 over the field of two elements, its most
significant bit the constant term. Blocks are multiplied modulo `x ^ 128 + x ^ 7 + x ^ 2 + x + 1`,
and a list of blocks is hashed as the value of a polynomial with those coefficients at the hash key.
-/

namespace SealedStore.Ghash

/-- The remainder of `x ^ 128`. -/
def reduction : Block := 0xe1000000000000000000000000000000

/-- The product of a block and `x`. -/
def timesX (block : Block) : Block :=
  if block.getLsbD 0 then (block >>> 1) ^^^ reduction else block >>> 1

/-- The sum of the multiples of `multiple`, `x * multiple`, … that the next `count` bits of `block`
select, the bit at `count - 1` first. -/
def sumMultiples (block : Block) : (count : Nat) → (multiple : Block) → Block
  | 0, _ => 0
  | count + 1, multiple =>
      (if block.getLsbD count then multiple else 0) ^^^ sumMultiples block count (timesX multiple)

/-- The product of two blocks. -/
def multiply (left right : Block) : Block :=
  sumMultiples left 128 right

/-- The hash of a list of blocks under a key, by the rule of Horner. -/
def hash (key : Block) (blocks : List Block) : Block :=
  blocks.foldl (fun value block ↦ multiply (value ^^^ block) key) 0

end SealedStore.Ghash

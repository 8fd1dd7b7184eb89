import SealedStore.Facility

/-!
# A random source from a seed

The draws of a seeded source are encrypted counters under the seed. Each draw has counters of its
own, so draws repeat nothing of one another unless the seed is used again.
-/

namespace SealedStore.RandomSource

/-- The counter of a block of a draw. -/
def counter (draw index : Nat) : Block :=
  BitVec.ofNat 64 draw ++ BitVec.ofNat 64 index

/-- The blocks that a draw of so many bytes is taken from. -/
def drawBlocks (cipher : BlockCipher) (draw count : Nat) : List Block :=
  (List.range ((count + (blockLength - 1)) / blockLength)).map fun index ↦
    cipher.encrypt (counter draw index)

theorem length_drawBlocks (cipher : BlockCipher) (draw count : Nat) :
    (drawBlocks cipher draw count).length = (count + (blockLength - 1)) / blockLength := by
  simp [drawBlocks]

/-- The source of a seed. -/
def ofSeed (seed : Aes.Key) : RandomSource :=
  let cipher := Aes.cipher seed
  { bytes := fun draw count ↦ (Bytes.ofWords (drawBlocks cipher draw count)).take count
    length_bytes := by
      intro draw count
      have hlength := @Bytes.length_ofWords 16 (drawBlocks cipher draw count)
      rw [length_drawBlocks] at hlength
      rw [List.length_take, hlength]
      unfold blockLength
      omega }

end SealedStore.RandomSource

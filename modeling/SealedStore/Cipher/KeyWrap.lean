import SealedStore.BlockCipher
import SealedStore.Cipher.Machine

/-!
# Key wrapping

A key of at least two semiblocks is wrapped in six passes over them. Each step encrypts the check
value together with one semiblock, gives back the second half as the semiblock and carries the first
half on, marked with the number of the step. Unwrapping takes the steps back from the last to the
first, and the key is genuine if the check value comes out as it went in.
-/

namespace SealedStore.KeyWrap

/-- The check value before the first step. -/
def initialValue : Semiblock := 0xa6a6a6a6a6a6a6a6

/-- A key is wrapped in six passes. -/
def passCount : Nat := 6

/-- The first half of a block. -/
def high (block : Block) : Semiblock := block.extractLsb' 64 64

/-- The second half of a block. -/
def low (block : Block) : Semiblock := block.extractLsb' 0 64

/-- One pass over the semiblocks, its steps numbered from `step` on. -/
def pass (cipher : BlockCipher) (check : Semiblock) (step : Nat) :
    List Semiblock → Semiblock × List Semiblock
  | [] => (check, [])
  | semiblock :: rest =>
      let block := cipher.encrypt (check ++ semiblock)
      let (final, others) := pass cipher (high block ^^^ BitVec.ofNat 64 step) (step + 1) rest
      (final, low block :: others)

/-- One pass taken back. -/
def unpass (cipher : BlockCipher) (check : Semiblock) (step : Nat) :
    List Semiblock → Semiblock × List Semiblock
  | [] => (check, [])
  | semiblock :: rest =>
      let (later, others) := unpass cipher check (step + 1) rest
      let block := cipher.decrypt ((later ^^^ BitVec.ofNat 64 step) ++ semiblock)
      (high block, low block :: others)

/-- The first `count` passes, one after the other; the steps are numbered through. -/
def passes (cipher : BlockCipher) (check : Semiblock) (key : List Semiblock) :
    (count : Nat) → Semiblock × List Semiblock
  | 0 => (check, key)
  | count + 1 =>
      let (reached, semiblocks) := passes cipher check key count
      pass cipher reached (key.length * count + 1) semiblocks

/-- The first `count` passes taken back, the last of them first. -/
def unpasses (cipher : BlockCipher) (check : Semiblock) (wrapped : List Semiblock) :
    (count : Nat) → Semiblock × List Semiblock
  | 0 => (check, wrapped)
  | count + 1 =>
      let (reached, semiblocks) := unpass cipher check (wrapped.length * count + 1) wrapped
      unpasses cipher reached semiblocks count

/-- The semiblocks of a wrapped key: the check value and then the key. -/
def wrap (cipher : BlockCipher) (key : List Semiblock) : List Semiblock :=
  let (check, semiblocks) := passes cipher initialValue key passCount
  check :: semiblocks

/-- The machine of key wrapping carries the data it has been fed. -/
def machine (cipher : BlockCipher) : Machine Bytes where
  start _ := []
  absorb _ pending data := .ok ([], pending ++ data)
  conclude
    | .encrypt, key, tag =>
        if key.length % semiblockLength = 0 ∧ 2 * semiblockLength ≤ key.length then
          .done (Bytes.ofWords (wrap cipher key.semiblocks)) tag
        else .broken (.keyDataLength .encrypt key.length)
    | .decrypt, wrapped, tag =>
        if wrapped.length % semiblockLength = 0 ∧ 3 * semiblockLength ≤ wrapped.length then
          match wrapped.semiblocks with
          | [] => .broken .outOfBounds
          | check :: rest =>
              let (reached, key) := unpasses cipher check rest passCount
              if reached = initialValue then .done (Bytes.ofWords key) tag
              else .broken .keyIntegrityFailure
        else .broken (.keyDataLength .decrypt wrapped.length)

end SealedStore.KeyWrap

import SealedStore.Aes.Substitution
import SealedStore.Block

/-!
# The AES state and the steps of a round

The state is four columns of four bytes. A round substitutes every byte, turns the rows, mixes the
columns and adds a round key; each step has an inverse step, and the pairs of lemmas below say that
the inverse undoes it in both orders. Mixing twice is the simpler map `spread`, which is its own
inverse, so mixing is undone by spreading and then mixing.
-/

namespace SealedStore.Aes

/-- Four bytes, one from each row. -/
@[ext] structure Column where
  top : UInt8
  upper : UInt8
  lower : UInt8
  bottom : UInt8
  deriving DecidableEq

/-- Four columns. -/
@[ext] structure State where
  first : Column
  second : Column
  third : Column
  fourth : Column
  deriving DecidableEq

namespace Column

/-- The bytewise sum of two columns. -/
def add (left right : Column) : Column :=
  ⟨left.top ^^^ right.top, left.upper ^^^ right.upper, left.lower ^^^ right.lower,
    left.bottom ^^^ right.bottom⟩

/-- The same map applied to each byte. -/
def map (f : UInt8 → UInt8) (column : Column) : Column :=
  ⟨f column.top, f column.upper, f column.lower, f column.bottom⟩

/-- The column with each byte moved up one row and the top byte at the bottom. -/
def turn (column : Column) : Column :=
  ⟨column.upper, column.lower, column.bottom, column.top⟩

/-- Twice a byte in the field of 256 elements. -/
def double (byte : UInt8) : UInt8 :=
  (byte <<< 1) ^^^ (if byte < 128 then 0 else 0x1b)

/-- The product with the matrix whose rows are the turns of 2, 3, 1, 1: twice a byte and three
times the next and once the others is the byte, the sum of all four and twice the sum of the two. -/
def mix (column : Column) : Column :=
  let ⟨a, b, c, d⟩ := column
  let sum := a ^^^ b ^^^ c ^^^ d
  ⟨a ^^^ sum ^^^ double (a ^^^ b), b ^^^ sum ^^^ double (b ^^^ c),
    c ^^^ sum ^^^ double (c ^^^ d), d ^^^ sum ^^^ double (d ^^^ a)⟩

/-- Four times the sum of every other byte added to those bytes. -/
def spread (column : Column) : Column :=
  let ⟨a, b, c, d⟩ := column
  let even := double (double (a ^^^ c))
  let odd := double (double (b ^^^ d))
  ⟨a ^^^ even, b ^^^ odd, c ^^^ even, d ^^^ odd⟩

/-- The column whose mixture is the given one. -/
def unmix (column : Column) : Column :=
  mix (spread column)

/-- The column of a 32-bit word, the most significant byte on top. -/
def ofWord (word : BitVec 32) : Column :=
  ⟨⟨word.extractLsb' 24 8⟩, ⟨word.extractLsb' 16 8⟩, ⟨word.extractLsb' 8 8⟩, ⟨word.extractLsb' 0 8⟩⟩

/-- The word of a column. -/
def toWord (column : Column) : BitVec 32 :=
  column.top.toBitVec ++ column.upper.toBitVec ++ column.lower.toBitVec ++ column.bottom.toBitVec

theorem xor_left_comm (a b c : UInt8) : a ^^^ (b ^^^ c) = b ^^^ (a ^^^ c) := by
  rw [← UInt8.xor_assoc, UInt8.xor_comm a, UInt8.xor_assoc]

@[simp] theorem xor_cancel_left (a b : UInt8) : a ^^^ (a ^^^ b) = b := by
  rw [← UInt8.xor_assoc, UInt8.xor_self, UInt8.zero_xor]

/-- Doubling is additive. -/
theorem double_xor (a b : UInt8) : double (a ^^^ b) = double a ^^^ double b := by
  have htop : ∀ byte : UInt8,
      (if byte < 128 then (0 : UInt8) else 0x1b) = if byte &&& 128 = 0 then 0 else 0x1b :=
    forall_byte (by decide +kernel)
  have hbit : ∀ byte : UInt8, byte &&& 128 = 0 ∨ byte &&& 128 = 128 :=
    forall_byte (by decide +kernel)
  have hand : (a ^^^ b) &&& 128 = (a &&& 128) ^^^ (b &&& 128) := by
    apply UInt8.toBitVec_inj.mp
    apply BitVec.eq_of_getLsbD_eq
    intro index hindex
    simp only [UInt8.toBitVec_and, UInt8.toBitVec_xor, BitVec.getLsbD_and, BitVec.getLsbD_xor,
      Bool.and_xor_distrib_right]
  unfold double
  rw [htop, htop, htop, hand, UInt8.shiftLeft_xor]
  rcases hbit a with ha | ha <;> rcases hbit b with hb | hb <;> rw [ha, hb] <;>
    simp [UInt8.xor_assoc, UInt8.xor_comm, xor_left_comm]

/-- Mixing twice is spreading. -/
theorem mix_mix (column : Column) : mix (mix column) = spread column := by
  obtain ⟨a, b, c, d⟩ := column
  simp only [mix, spread, mk.injEq, double_xor]
  refine ⟨?_, ?_, ?_, ?_⟩ <;> simp [UInt8.xor_assoc, UInt8.xor_comm, xor_left_comm]

/-- Spreading twice changes nothing. -/
theorem spread_spread (column : Column) : spread (spread column) = column := by
  obtain ⟨a, b, c, d⟩ := column
  simp only [spread, mk.injEq, double_xor]
  refine ⟨?_, ?_, ?_, ?_⟩ <;> simp [UInt8.xor_comm, xor_left_comm]

@[simp] theorem unmix_mix (column : Column) : unmix (mix column) = column := by
  rw [unmix, ← mix_mix, mix_mix, mix_mix, spread_spread]

@[simp] theorem mix_unmix (column : Column) : mix (unmix column) = column := by
  rw [unmix, mix_mix, spread_spread]

@[simp] theorem add_add (column key : Column) : (column.add key).add key = column := by
  simp only [add, UInt8.xor_assoc, UInt8.xor_self, UInt8.xor_zero]

/-- The bytes of a word that was put together are the bytes it was put together from. -/
theorem extractLsb'_append (a b c d : BitVec 8) :
    (a ++ b ++ c ++ d).extractLsb' 24 8 = a ∧ (a ++ b ++ c ++ d).extractLsb' 16 8 = b ∧
      (a ++ b ++ c ++ d).extractLsb' 8 8 = c ∧ (a ++ b ++ c ++ d).extractLsb' 0 8 = d := by
  refine ⟨?_, ?_, ?_, ?_⟩ <;> apply BitVec.eq_of_getLsbD_eq <;> intro index hindex <;>
    simp only [BitVec.getLsbD_extractLsb', BitVec.getLsbD_append, hindex, decide_true,
      Bool.true_and] <;>
    grind

@[simp] theorem ofWord_toWord (column : Column) : ofWord (toWord column) = column := by
  obtain ⟨⟨a⟩, ⟨b⟩, ⟨c⟩, ⟨d⟩⟩ := column
  obtain ⟨ha, hb, hc, hd⟩ := extractLsb'_append a b c d
  simp [ofWord, toWord, ha, hb, hc, hd]

@[simp] theorem toWord_ofWord (word : BitVec 32) : toWord (ofWord word) = word := by
  apply BitVec.eq_of_getLsbD_eq
  intro index hindex
  simp only [toWord, ofWord, BitVec.getLsbD_append, BitVec.getLsbD_extractLsb']
  grind

end Column

namespace State

/-- The state of a block, column by column. -/
def ofBlock (block : Block) : State :=
  ⟨.ofWord (block.extractLsb' 96 32), .ofWord (block.extractLsb' 64 32),
    .ofWord (block.extractLsb' 32 32), .ofWord (block.extractLsb' 0 32)⟩

/-- The block of a state. -/
def toBlock (state : State) : Block :=
  state.first.toWord ++ state.second.toWord ++ state.third.toWord ++ state.fourth.toWord

/-- The same map applied to each column. -/
def map (f : Column → Column) (state : State) : State :=
  ⟨f state.first, f state.second, f state.third, f state.fourth⟩

/-- The bytewise sum of two states. -/
def add (left right : State) : State :=
  ⟨left.first.add right.first, left.second.add right.second, left.third.add right.third,
    left.fourth.add right.fourth⟩

/-- Each row turned left, by one place more than the row above it. -/
def turnRows (state : State) : State :=
  let ⟨p, q, r, s⟩ := state
  ⟨⟨p.top, q.upper, r.lower, s.bottom⟩, ⟨q.top, r.upper, s.lower, p.bottom⟩,
    ⟨r.top, s.upper, p.lower, q.bottom⟩, ⟨s.top, p.upper, q.lower, r.bottom⟩⟩

/-- Each row turned right, by one place more than the row above it. -/
def returnRows (state : State) : State :=
  let ⟨p, q, r, s⟩ := state
  ⟨⟨p.top, s.upper, r.lower, q.bottom⟩, ⟨q.top, p.upper, s.lower, r.bottom⟩,
    ⟨r.top, q.upper, p.lower, s.bottom⟩, ⟨s.top, r.upper, q.lower, p.bottom⟩⟩

@[simp] theorem returnRows_turnRows (state : State) : returnRows (turnRows state) = state := rfl

@[simp] theorem turnRows_returnRows (state : State) : turnRows (returnRows state) = state := rfl

@[simp] theorem add_add (state key : State) : (state.add key).add key = state := by
  simp [add]

/-- A map of columns undone column by column. -/
theorem map_map_cancel {f g : Column → Column} (hcancel : ∀ column, g (f column) = column)
    (state : State) : (state.map f).map g = state := by
  simp [map, hcancel]

/-- The columns of a block that was put together are the columns it was put together from. -/
theorem extractLsb'_append (a b c d : BitVec 32) :
    (a ++ b ++ c ++ d).extractLsb' 96 32 = a ∧ (a ++ b ++ c ++ d).extractLsb' 64 32 = b ∧
      (a ++ b ++ c ++ d).extractLsb' 32 32 = c ∧ (a ++ b ++ c ++ d).extractLsb' 0 32 = d := by
  refine ⟨?_, ?_, ?_, ?_⟩ <;> apply BitVec.eq_of_getLsbD_eq <;> intro index hindex <;>
    simp only [BitVec.getLsbD_extractLsb', BitVec.getLsbD_append, hindex, decide_true,
      Bool.true_and] <;>
    grind

@[simp] theorem ofBlock_toBlock (state : State) : ofBlock (toBlock state) = state := by
  obtain ⟨hfirst, hsecond, hthird, hfourth⟩ := extractLsb'_append state.first.toWord
    state.second.toWord state.third.toWord state.fourth.toWord
  simp [ofBlock, toBlock, hfirst, hsecond, hthird, hfourth]

@[simp] theorem toBlock_ofBlock (block : Block) : toBlock (ofBlock block) = block := by
  apply BitVec.eq_of_getLsbD_eq
  intro index hindex
  simp only [toBlock, ofBlock, Column.toWord_ofWord, BitVec.getLsbD_append,
    BitVec.getLsbD_extractLsb']
  grind

end State

end SealedStore.Aes

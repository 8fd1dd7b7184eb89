import SealedStore.Aes.State
import SealedStore.BlockCipher

/-!
# AES with a 256-bit key

A key is expanded to fifteen round keys. Encryption adds the first, runs thirteen full rounds and
one round without mixing; decryption takes the rounds back from the last to the first. `cipher`
packs the two with the proof that they are inverse to each other.
-/

namespace SealedStore.Aes

/-- A key of 32 bytes. -/
abbrev Key := BitVec 256

/-- A key is 32 bytes long. -/
def keyLength : Nat := 32

/-- Two consecutive round keys, from which the next two follow. -/
structure KeyPair where
  left : State
  right : State

/-- The first two round keys are the key itself. -/
def KeyPair.ofKey (key : Key) : KeyPair :=
  ⟨.ofBlock (key.extractLsb' 128 128), .ofBlock (key.extractLsb' 0 128)⟩

/-- Each column is the column two keys back added to the one before it; the column before is turned,
substituted and marked with the constant of the pair where the left key begins, and substituted
where the right key begins. -/
def KeyPair.next (constant : UInt8) (pair : KeyPair) : KeyPair :=
  let seed := (pair.right.fourth.turn.map substitute).add ⟨constant, 0, 0, 0⟩
  let a := pair.left.first.add seed
  let b := pair.left.second.add a
  let c := pair.left.third.add b
  let d := pair.left.fourth.add c
  let e := pair.right.first.add (d.map substitute)
  let f := pair.right.second.add e
  let g := pair.right.third.add f
  let h := pair.right.fourth.add g
  ⟨⟨a, b, c, d⟩, ⟨e, f, g, h⟩⟩

/-- The pairs that the constants lead to, of the last one only the left key. -/
def KeyPair.expand (pair : KeyPair) : List UInt8 → List State
  | [] => [pair.left]
  | constant :: rest => pair.left :: pair.right :: (pair.next constant).expand rest

/-- The constants of the key pairs, each twice the one before it. -/
def pairConstants : List UInt8 :=
  [0x01, 0x02, 0x04, 0x08, 0x10, 0x20, 0x40]

/-- The fifteen round keys. -/
def roundKeys (key : Key) : List State :=
  (KeyPair.ofKey key).expand pairConstants

/-- A full round. -/
def round (key state : State) : State :=
  (((state.map (.map substitute)).turnRows).map .mix).add key

/-- The round that takes a full round back. -/
def unround (key state : State) : State :=
  (((state.add key).map .unmix).returnRows).map (.map restore)

/-- The last round, which does not mix the columns. -/
def lastRound (key state : State) : State :=
  ((state.map (.map substitute)).turnRows).add key

/-- The round that takes the last round back. -/
def unlastRound (key state : State) : State :=
  ((state.add key).returnRows).map (.map restore)

/-- A round for every key, the last key with the last round. -/
def rounds (state : State) : List State → State
  | [] => state
  | [key] => lastRound key state
  | key :: rest => rounds (round key state) rest

/-- The rounds of all keys taken back, from the last key to the first. -/
def unrounds (state : State) : List State → State
  | [] => state
  | [key] => unlastRound key state
  | key :: rest => unround key (unrounds state rest)

/-- The encryption of a state: the first key is added before the rounds of the others. -/
def encryptState (state : State) : List State → State
  | [] => state
  | key :: rest => rounds (state.add key) rest

/-- The decryption of a state. -/
def decryptState (state : State) : List State → State
  | [] => state
  | key :: rest => (unrounds state rest).add key

@[simp] theorem restore_map_substitute (column : Column) :
    (column.map substitute).map restore = column := by
  simp [Column.map]

@[simp] theorem substitute_map_restore (column : Column) :
    (column.map restore).map substitute = column := by
  simp [Column.map]

@[simp] theorem unround_round (key state : State) : unround key (round key state) = state := by
  simp [unround, round, State.map_map_cancel]

@[simp] theorem round_unround (key state : State) : round key (unround key state) = state := by
  simp [unround, round, State.map_map_cancel]

@[simp] theorem unlastRound_lastRound (key state : State) :
    unlastRound key (lastRound key state) = state := by
  simp [unlastRound, lastRound, State.map_map_cancel]

@[simp] theorem lastRound_unlastRound (key state : State) :
    lastRound key (unlastRound key state) = state := by
  simp [unlastRound, lastRound, State.map_map_cancel]

theorem unrounds_rounds (keys : List State) (state : State) :
    unrounds (rounds state keys) keys = state := by
  fun_induction rounds state keys with
  | case1 => rfl
  | case2 => simp [unrounds]
  | case3 state key rest hrest ih => simp [unrounds, ih]

theorem rounds_unrounds (keys : List State) (state : State) :
    rounds (unrounds state keys) keys = state := by
  fun_induction unrounds state keys with
  | case1 => rfl
  | case2 => simp [rounds]
  | case3 key rest hrest ih => simp [rounds, ih]

theorem decryptState_encryptState (keys : List State) (state : State) :
    decryptState (encryptState state keys) keys = state := by
  cases keys with
  | nil => rfl
  | cons key rest => simp [decryptState, encryptState, unrounds_rounds]

theorem encryptState_decryptState (keys : List State) (state : State) :
    encryptState (decryptState state keys) keys = state := by
  cases keys with
  | nil => rfl
  | cons key rest => simp [decryptState, encryptState, rounds_unrounds]

/-- The permutation of the blocks under a key. -/
def cipher (key : Key) : BlockCipher :=
  let keys := roundKeys key
  { encrypt := fun block ↦ (encryptState (.ofBlock block) keys).toBlock
    decrypt := fun block ↦ (decryptState (.ofBlock block) keys).toBlock
    decrypt_encrypt := by simp [decryptState_encryptState]
    encrypt_decrypt := by simp [encryptState_decryptState] }

/-- The example of the standard: the block 00112233…ff under the key 000102…1f. -/
theorem cipher_example :
    (cipher 0x000102030405060708090a0b0c0d0e0f101112131415161718191a1b1c1d1e1f).encrypt
        0x00112233445566778899aabbccddeeff = 0x8ea2b7ca516745bfeafc49904b496089 := by
  decide +kernel

end SealedStore.Aes

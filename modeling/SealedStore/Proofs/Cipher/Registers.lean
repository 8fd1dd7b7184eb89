import SealedStore.Proofs.Cipher.KeyWrap.Inverse

/-!
# The registers of a cipher

A session carries the work of its machine while it is under way, and nothing before and after. A
device keeps its registers all the time: a call that begins the work sets them, other calls find
them as the last call left them, and a reset has to clear them one by one. Here the registers of
each mode are given beside its machine (`Circuit`), and what they hold while the machine carries its
work (`Layout`). They give what the machine gives: `Mode.simulates`.
-/

namespace SealedStore

/-- What the registers give for some data. -/
inductive Release where
  | released (output : Bytes)
  /-- The registers are not set for the direction. This is no failure of the cipher. -/
  | refused (error : CipherError)
  /-- A failure for good. -/
  | broken (error : CipherError)

/-- The registers of a cipher under a fixed key and IV. Feeding and ending are told whether the call
begins the work, and leave the registers to the next call. -/
structure Circuit (Registers : Type) where
  /-- The registers of a new device. -/
  blank : Registers
  absorb : Direction → (beginning : Bool) → Bytes → Registers → Release × Registers
  conclude : Direction → (beginning : Bool) → (tag : Bytes) → Registers → Conclusion × Registers
  /-- What a reset makes of the registers. -/
  clear : Registers → Registers

/-- How registers hold the work of a machine that is under way in a direction, and what they may
hold when the work has ended or has failed. -/
structure Layout (Work Registers : Type) where
  holding : Direction → Work → Registers
  Ended : Registers → Prop
  Failed : Registers → Prop

namespace Layout

variable {Work Registers : Type}

/-- The registers give what the machine gives for some data. -/
def Absorbs (layout : Layout Work Registers) (direction : Direction) (given : Release × Registers) :
    Except CipherError (Bytes × Work) → Prop
  | .ok (output, next) => given = (.released output, layout.holding direction next)
  | .error error => ∃ left, given = (.broken error, left) ∧ layout.Failed left

/-- What the registers hold after an end of the work. If it may be tried again, they still hold the
work. -/
def Concludes (layout : Layout Work Registers) (direction : Direction) (work : Work)
    (left : Registers) : Conclusion → Prop
  | .done _ _ => layout.Ended left
  | .retry _ => left = layout.holding direction work
  | .broken _ => layout.Failed left

end Layout

/-- The registers give what the machine gives. A call that begins the work finds them blank, and
makes of them what it would make of the work at its start. -/
structure Circuit.Simulates {Work Registers : Type} (circuit : Circuit Registers)
    (machine : Machine Work) (layout : Layout Work Registers) : Prop where
  clear_eq : ∀ registers, circuit.clear registers = circuit.blank
  absorb_begin : ∀ direction data, circuit.absorb direction true data circuit.blank =
    circuit.absorb direction false data (layout.holding direction (machine.start direction))
  conclude_begin : ∀ direction tag, circuit.conclude direction true tag circuit.blank =
    circuit.conclude direction false tag (layout.holding direction (machine.start direction))
  absorb : ∀ direction work data, layout.Absorbs direction
    (circuit.absorb direction false data (layout.holding direction work))
    (machine.absorb direction work data)
  conclude : ∀ direction work tag, ∃ left,
    circuit.conclude direction false tag (layout.holding direction work) =
        (machine.conclude direction work tag, left) ∧
      layout.Concludes direction work left (machine.conclude direction work tag)

/-! ## Cipher block chaining -/

namespace Cbc

/-- What turns the blocks. It is set for one direction and has the last ciphertext block. -/
inductive Engine where
  | idle
  | encrypting (chain : Block)
  | decrypting (chain : Block)
  deriving DecidableEq

/-- An engine for a direction. -/
def Engine.set : Direction → Block → Engine
  | .encrypt, chain => .encrypting chain
  | .decrypt, chain => .decrypting chain

/-- The last ciphertext block, if the engine is set for the direction. -/
def Engine.chain? : Direction → Engine → Option Block
  | .encrypt, .encrypting chain => some chain
  | .decrypt, .decrypting chain => some chain
  | _, _ => none

@[simp] theorem Engine.chain?_set (direction : Direction) (chain : Block) :
    (Engine.set direction chain).chain? direction = some chain := by
  cases direction <;> rfl

/-- The engine, and the input not yet released. -/
structure Registers where
  engine : Engine
  pending : Bytes
  deriving DecidableEq

/-- The engine for a call, which is a new one if the call begins the work. -/
def engineFor (iv : Block) (direction : Direction) (beginning : Bool) (registers : Registers) :
    Engine :=
  if beginning then .set direction iv else registers.engine

/-- The circuit of chaining. An engine that is not set for the direction turns nothing, but the
input is taken out of the registers all the same. The engine stays when the work is over. -/
def circuit (cipher : BlockCipher) (iv : Block) : Circuit Registers where
  blank := ⟨.idle, []⟩
  absorb direction beginning data registers :=
    let engine := engineFor iv direction beginning registers
    let available := registers.pending ++ data
    let count := ready direction available.length
    match engine.chain? direction with
    | none => (.refused (.invalidState direction direction.state), ⟨engine, available.drop count⟩)
    | some chain =>
        let (output, next) := turn cipher chain direction (Bytes.blocks (available.take count))
        (.released (Bytes.ofWords output), ⟨.set direction next, available.drop count⟩)
  conclude direction beginning tag registers :=
    let engine := engineFor iv direction beginning registers
    match direction with
    | .encrypt =>
        match engine.chain? .encrypt with
        | none => (.retry (.invalidState .encrypt .encrypting), ⟨engine, []⟩)
        | some chain =>
            let (output, next) := turn cipher chain .encrypt (pad registers.pending).blocks
            (.done (Bytes.ofWords output) tag, ⟨.set .encrypt next, []⟩)
    | .decrypt =>
        if registers.pending.length ≠ blockLength then
          (.broken (.truncatedCiphertext registers.pending.length), ⟨engine, []⟩)
        else
          match engine.chain? .decrypt with
          | none => (.retry (.invalidState .decrypt .decrypting), ⟨engine, []⟩)
          | some chain =>
              let (output, next) := turn cipher chain .decrypt registers.pending.blocks
              match unpad (Bytes.ofWords output) with
              | .ok message => (.done message tag, ⟨.set .decrypt next, []⟩)
              | .error error => (.broken error, ⟨.set .decrypt next, []⟩)
  clear registers := { registers with engine := .idle, pending := [] }

/-- Under way the engine is at the last ciphertext block, and afterwards nothing is pending. -/
def layout : Layout Work Registers where
  holding direction work := ⟨.set direction work.chain, work.pending⟩
  Ended registers := registers.pending = []
  Failed registers := registers.pending = []

theorem simulates (cipher : BlockCipher) (iv : Block) :
    (circuit cipher iv).Simulates (machine cipher iv) layout where
  clear_eq _ := rfl
  absorb_begin _ _ := rfl
  conclude_begin _ _ := rfl
  absorb direction _ _ := by cases direction <;> rfl
  conclude direction work tag := by
    cases direction with
    | encrypt => exact ⟨⟨_, []⟩, rfl, rfl⟩
    | decrypt =>
        simp only [circuit, machine, layout, engineFor, turn, Bool.false_eq_true, ↓reduceIte,
          Engine.chain?_set]
        split
        next => exact ⟨⟨_, []⟩, rfl, rfl⟩
        next =>
          cases unpad (Bytes.ofWords (decryptBlocks cipher work.chain work.pending.blocks)) with
          | ok message => exact ⟨⟨_, []⟩, rfl, rfl⟩
          | error error => exact ⟨⟨_, []⟩, rfl, rfl⟩

end Cbc

/-! ## Counter mode -/

namespace Ctr

/-- The circuit of counter mode has one register: the place in the keystream, while there is a
keystream. The end of the work drops it. -/
def circuit (cipher : BlockCipher) (iv : Block) : Circuit (Option Nat) where
  blank := none
  absorb direction beginning data keystream? :=
    match if beginning then some 0 else keystream? with
    | none => (.refused (.invalidState direction direction.state), none)
    | some offset =>
        let reached := offset + data.length
        if (reached + (blockLength - 1)) / blockLength ≤ maxBlocks then
          (.released (Keystream.mask (keystream cipher iv) offset data), some reached)
        else (.broken .keystreamExhausted, some offset)
  conclude _ _ tag _ := (.done [] tag, none)
  clear _ := none

/-- Under way there is a keystream, and when the work has ended there is none. -/
def layout : Layout Nat (Option Nat) where
  holding _ offset := some offset
  Ended keystream? := keystream? = none
  Failed _ := True

theorem simulates (cipher : BlockCipher) (iv : Block) :
    (circuit cipher iv).Simulates (machine cipher iv) layout where
  clear_eq _ := rfl
  absorb_begin _ _ := rfl
  conclude_begin _ _ := rfl
  absorb direction offset data := by
    simp only [circuit, machine, layout, Bool.false_eq_true, ↓reduceIte]
    split
    next => exact rfl
    next => exact ⟨_, rfl, trivial⟩
  conclude _ _ _ := ⟨none, rfl, rfl⟩

end Ctr

/-! ## Modes that keep the message -/

/-- Under way the message is kept, and when the work is over nothing of it is. -/
def keptLayout : Layout Bytes Bytes where
  holding _ message := message
  Ended kept := kept = []
  Failed kept := kept = []

/-- The circuit of Galois counter mode keeps the message. An end takes it, unless the tag is missing
or has a wrong length. -/
def Gcm.circuit (cipher : BlockCipher) (iv : BitVec 96) : Circuit Bytes where
  blank := []
  absorb _ _ data kept := (.released [], kept ++ data)
  conclude direction _ tag kept :=
    match (machine cipher iv).conclude direction kept tag with
    | .done output final => (.done output final, [])
    | .retry error => (.retry error, kept)
    | .broken error => (.broken error, [])
  clear _ := []

theorem Gcm.simulates (cipher : BlockCipher) (iv : BitVec 96) :
    (circuit cipher iv).Simulates (machine cipher iv) keptLayout where
  clear_eq _ := rfl
  absorb_begin _ _ := rfl
  conclude_begin _ _ := rfl
  absorb _ _ _ := rfl
  conclude direction message tag := by
    simp only [circuit, keptLayout]
    cases (machine cipher iv).conclude direction message tag <;> exact ⟨_, rfl, rfl⟩

/-- The circuit of key wrapping keeps the key. Every end takes it. -/
def KeyWrap.circuit (cipher : BlockCipher) : Circuit Bytes where
  blank := []
  absorb _ _ data kept := (.released [], kept ++ data)
  conclude direction _ tag kept := ((machine cipher).conclude direction kept tag, [])
  clear _ := []

theorem KeyWrap.simulates (cipher : BlockCipher) :
    (circuit cipher).Simulates (machine cipher) keptLayout where
  clear_eq _ := rfl
  absorb_begin _ _ := rfl
  conclude_begin _ _ := rfl
  absorb _ _ _ := rfl
  conclude direction key tag := by
    refine ⟨[], rfl, ?_⟩
    cases hconclude : (machine cipher).conclude direction key tag with
    | done => exact rfl
    | broken => exact rfl
    | retry error => exact absurd hconclude (conclude_ne_retry direction key tag error)

/-! ## All modes -/

namespace Mode

/-- What a device of the mode keeps. -/
def Registers : Mode → Type
  | cbc => Cbc.Registers
  | ctr => Option Nat
  | gcm => Bytes
  | keyWrap => Bytes

/-- The circuit of the mode under a key and an IV. -/
def circuit : (mode : Mode) → Aes.Key → BitVec mode.ivBits → Circuit mode.Registers
  | cbc, key, iv => Cbc.circuit (Aes.cipher key) iv
  | ctr, key, iv => Ctr.circuit (Aes.cipher key) iv
  | gcm, key, iv => Gcm.circuit (Aes.cipher key) iv
  | keyWrap, key, _ => KeyWrap.circuit (Aes.cipher key)

/-- What the registers of the mode hold. -/
def layout : (mode : Mode) → Layout mode.Work mode.Registers
  | cbc => Cbc.layout
  | ctr => Ctr.layout
  | gcm => keptLayout
  | keyWrap => keptLayout

/-- The registers of every mode give what its machine gives. -/
theorem simulates (mode : Mode) (key : Aes.Key) (iv : BitVec mode.ivBits) :
    (mode.circuit key iv).Simulates (mode.machine key iv) mode.layout := by
  cases mode with
  | cbc => exact Cbc.simulates _ _
  | ctr => exact Ctr.simulates _ _
  | gcm => exact Gcm.simulates _ _
  | keyWrap => exact KeyWrap.simulates _

end Mode

end SealedStore

import SealedStore.Proofs.Cipher.Device
import SealedStore.Proofs.Cipher.Traffic

/-!
# The registers are in step with the state

A device keeps its state and its registers apart, and neither of them says that they fit together.
They do. In every state the registers of each mode hold what the data given since the device was
fresh makes of them (`Mode.InOrder`): chaining has released all whole blocks of it but the one that
decryption holds back, counter mode has a keystream while it is under way, and the other modes keep
the message no longer than that. So no call that the state lets through finds registers that are
not set for it. This holds after every run: `Session.bookkeeping_exact`.
-/

namespace SealedStore

/-! ## Cipher block chaining -/

namespace Cbc

variable {cipher : BlockCipher} {iv : Block} {input output rest : Bytes}

theorem length_turn (chain : Block) (direction : Direction) (blocks : List Block) :
    (turn cipher chain direction blocks).1.length = blocks.length := by
  cases direction with
  | encrypt => exact length_encryptBlocks cipher chain blocks
  | decrypt => exact length_decryptBlocks cipher chain blocks

/-- What a direction makes of all the data: its ciphertext, or its plaintext with the padding. -/
def turned (cipher : BlockCipher) (iv : Block) : Direction → Bytes → Bytes
  | .encrypt => ciphertext cipher iv
  | .decrypt => paddedPlaintext cipher iv

/-- What whole blocks are turned into comes first, whatever follows them. -/
theorem turn_prefix_turned (direction : Direction) (hinput : blockLength ∣ input.length)
    (rest : Bytes) :
    Bytes.ofWords (turn cipher iv direction input.blocks).1 <+:
      turned cipher iv direction (input ++ rest) := by
  cases direction with
  | encrypt =>
      rw [turned, ciphertext, pad_append _ hinput, Bytes.blocks_append _ hinput,
        encryptBlocks_append, Bytes.ofWords_append]
      exact List.prefix_append _ _
  | decrypt =>
      rw [turned, paddedPlaintext, Bytes.blocks_append _ hinput, decryptBlocks_append,
        Bytes.ofWords_append]
      exact List.prefix_append _ _

/-- Just so many bytes have been released. They begin what the data is turned into as a whole,
whatever else is given, and the data after as many bytes is pending. -/
structure Streamed (whole : Bytes → Bytes) (count : Nat) (registers : Registers)
    (traffic : Traffic) : Prop where
  length_output : traffic.output.length = count
  output_prefix : ∀ rest, traffic.output <+: whole (traffic.input ++ rest)
  pending_eq : registers.pending = traffic.input.drop count

/-- Whatever the data, all that is ready of it has been released. -/
theorem streamed_of_absorb {direction : Direction} {work : Work}
    (habsorb : (machine cipher iv).absorb direction ((machine cipher iv).start direction) input =
      .ok (output, work)) :
    Streamed (turned cipher iv direction) (ready direction input.length)
      (layout.holding direction work) ⟨input, output⟩ := by
  simp only [machine, List.nil_append] at habsorb
  cases habsorb
  have hlength : (input.take (ready direction input.length)).length =
      ready direction input.length := by
    rw [List.length_take, Nat.min_eq_left (ready_le _ _)]
  have hwhole : blockLength ∣ (input.take (ready direction input.length)).length := by
    rw [hlength]
    exact dvd_ready _ _
  refine ⟨?_, fun rest ↦ ?_, rfl⟩
  · rw [Bytes.length_ofBlocks, length_turn, Bytes.length_blocks, Nat.mul_div_cancel' hwhole,
      hlength]
  · have hprefix : _ <+: turned cipher iv direction _ :=
      turn_prefix_turned direction hwhole (input.drop (ready direction input.length) ++ rest)
    rwa [← List.append_assoc, List.take_append_drop] at hprefix

/-- Of a genuine ciphertext nothing is released but the message: the padding is in the block that is
held back. -/
theorem output_prefix_message {message : Bytes}
    (houtput : output <+: paddedPlaintext cipher iv (input ++ rest))
    (hlength : output.length = ready .decrypt input.length)
    (hgenuine : input ++ rest = ciphertext cipher iv message) : output <+: message := by
  have hpadded : paddedPlaintext cipher iv (input ++ rest) = pad message :=
    (eq_ciphertext_iff cipher iv (hgenuine ▸ dvd_length_ciphertext cipher iv message)).mp hgenuine
  have hwhole := congrArg List.length hgenuine
  rw [List.length_append, length_ciphertext] at hwhole
  rw [hpadded] at houtput
  refine List.prefix_of_prefix_length_le houtput (List.prefix_append _ _) ?_
  simp only [ready, blockLength] at hlength hwhole
  omega

/-- What the engine and the pending input have to be in each state, after the data that has been
given and the output that has been released. -/
def InOrder (cipher : BlockCipher) (iv : Block) (registers : Registers) (traffic : Traffic) :
    SessionState → Prop
  | .fresh => registers = ⟨.idle, []⟩
  | .encrypting =>
      (∃ chain, registers.engine = .encrypting chain) ∧
      Streamed (ciphertext cipher iv) (blockLength * (traffic.input.length / blockLength))
        registers traffic ∧
      registers.pending.length = traffic.input.length % blockLength
  | .decrypting =>
      (∃ chain, registers.engine = .decrypting chain) ∧
      Streamed (paddedPlaintext cipher iv)
        (blockLength * ((traffic.input.length - 1) / blockLength)) registers traffic ∧
      (∀ message rest, traffic.input ++ rest = ciphertext cipher iv message →
        traffic.output <+: message) ∧
      registers.pending.length ≤ blockLength
  | .finalized | .poisoned => registers.pending = []

theorem inOrder {progress : Progress Work} {registers : Registers} {traffic : Traffic}
    (hholds : layout.Holds (circuit cipher iv).blank progress registers)
    (hcarries : progress.Carries (machine cipher iv) traffic) :
    InOrder cipher iv registers traffic progress.state := by
  cases progress with
  | fresh => exact hholds
  | active direction work =>
      cases hholds
      have hstreamed := streamed_of_absorb hcarries
      have hpending := congrArg List.length hstreamed.pending_eq
      rw [List.length_drop] at hpending
      cases direction with
      | encrypt =>
          refine ⟨⟨_, rfl⟩, hstreamed, ?_⟩
          rw [hpending]
          simp only [ready, blockLength]
          omega
      | decrypt =>
          refine ⟨⟨_, rfl⟩, hstreamed, fun message rest hgenuine ↦ ?_, ?_⟩
          · exact output_prefix_message (hstreamed.output_prefix rest) hstreamed.length_output
              hgenuine
          · rw [hpending]
            simp only [ready, blockLength]
            omega
  | finalized => exact hholds
  | poisoned => exact hholds

end Cbc

/-! ## Counter mode -/

namespace Ctr

variable {cipher : BlockCipher} {iv : Block}

/-- There is a keystream exactly while the device is under way, and it stands after as many bytes
as have been given. It runs out only when more blocks are given than there are counters for. -/
def InOrder (keystream? : Option Nat) (traffic : Traffic) : SessionState → Prop
  | .encrypting | .decrypting => keystream? = some traffic.input.length
  | .fresh | .finalized => keystream? = none
  | .poisoned => maxBlocks < blockCount traffic.input

/-- Only data for which there are not enough counters breaks the machine. -/
theorem lt_blockCount_of_breaks {input : Bytes} (hbreaks : (machine cipher iv).Breaks input) :
    maxBlocks < blockCount input := by
  obtain ⟨direction, habsorb | hconclude⟩ := hbreaks
  · obtain ⟨error, habsorb⟩ := habsorb
    simp only [machine, Nat.zero_add] at habsorb
    split at habsorb
    next => cases habsorb
    next hmany => exact Nat.lt_of_not_le hmany
  · obtain ⟨_, _, _, _, -, hbroken⟩ := hconclude
    cases hbroken

theorem inOrder {progress : Progress Nat} {keystream? : Option Nat} {traffic : Traffic}
    (hholds : layout.Holds (circuit cipher iv).blank progress keystream?)
    (hcarries : progress.Carries (machine cipher iv) traffic) :
    InOrder keystream? traffic progress.state := by
  cases progress with
  | fresh => exact hholds
  | active direction offset =>
      have hoffset : offset = traffic.input.length := by
        simp only [Progress.Carries, machine, Nat.zero_add] at hcarries
        split at hcarries
        next =>
          rw [Except.ok.injEq, Prod.mk.injEq] at hcarries
          exact hcarries.2.symm
        next => cases hcarries
      cases hholds
      cases direction with
      | encrypt => exact congrArg some hoffset
      | decrypt => exact congrArg some hoffset
  | finalized => exact hholds
  | poisoned => exact lt_blockCount_of_breaks hcarries

end Ctr

/-! ## Modes that keep the message -/

/-- While the device is under way all the data is kept and nothing is released, and otherwise
nothing is kept. -/
def KeptInOrder (kept : Bytes) (traffic : Traffic) : SessionState → Prop
  | .encrypting | .decrypting => kept = traffic.input ∧ traffic.output = []
  | .fresh | .finalized | .poisoned => kept = []

/-- A machine that only collects its data keeps it in order. -/
theorem keptInOrder {machine : Machine Bytes} {progress : Progress Bytes} {kept : Bytes}
    {traffic : Traffic} (hstart : ∀ direction, machine.start direction = [])
    (habsorb : ∀ direction message data,
      machine.absorb direction message data = .ok ([], message ++ data))
    (hholds : keptLayout.Holds [] progress kept) (hcarries : progress.Carries machine traffic) :
    KeptInOrder kept traffic progress.state := by
  cases progress with
  | fresh => exact hholds
  | active direction message =>
      cases hholds
      rw [Progress.Carries, hstart, habsorb, List.nil_append, Except.ok.injEq,
        Prod.mk.injEq] at hcarries
      cases direction with
      | encrypt => exact ⟨hcarries.2.symm, hcarries.1.symm⟩
      | decrypt => exact ⟨hcarries.2.symm, hcarries.1.symm⟩
  | finalized => exact hholds
  | poisoned => exact hholds

/-! ## All modes -/

/-- The registers of the mode are what they have to be in the state. -/
def Mode.InOrder : (mode : Mode) → Aes.Key → BitVec mode.ivBits → mode.Registers → Traffic →
    SessionState → Prop
  | .cbc, key, iv => Cbc.InOrder (Aes.cipher key) iv
  | .ctr, _, _ => Ctr.InOrder
  | .gcm, _, _ => KeptInOrder
  | .keyWrap, _, _ => KeptInOrder

theorem Mode.inOrder (mode : Mode) {key : Aes.Key} {iv : BitVec mode.ivBits}
    {progress : Progress mode.Work} {registers : mode.Registers} {traffic : Traffic}
    (hholds : mode.layout.Holds (mode.circuit key iv).blank progress registers)
    (hcarries : progress.Carries (mode.machine key iv) traffic) :
    mode.InOrder key iv registers traffic progress.state := by
  cases mode with
  | cbc => exact Cbc.inOrder hholds hcarries
  | ctr => exact Ctr.inOrder hholds hcarries
  | gcm => exact keptInOrder (fun _ ↦ rfl) (fun _ _ _ ↦ rfl) hholds hcarries
  | keyWrap => exact keptInOrder (fun _ ↦ rfl) (fun _ _ _ ↦ rfl) hholds hcarries

namespace Device

/-- The registers of the device are what they have to be in its state. -/
def InOrder (device : Device) (traffic : Traffic) : Prop :=
  device.mode.InOrder device.key device.iv device.registers traffic device.state

/-- A call that the state lets through finds the registers set for it: feeding is not refused, and
an end is not answered as in a wrong state. -/
def IsSet (device : Device) : Prop :=
  ∀ direction beginning, device.state.begin direction = .ok beginning →
    (∀ data error left,
      device.circuit.absorb direction beginning data device.registers ≠ (.refused error, left)) ∧
    ∀ tag other state left,
      device.circuit.conclude direction beginning tag device.registers ≠
        (.retry (.invalidState other state), left)

end Device

section Simulates

variable {Work Registers : Type} {machine : Machine Work} {circuit : Circuit Registers}
  {layout : Layout Work Registers} {direction : Direction} {work : Work} {left : Registers}

/-- Registers that hold work are set for its direction. -/
theorem Circuit.Simulates.absorb_ne_refused (hsimulates : circuit.Simulates machine layout)
    {data : Bytes} {error : CipherError} :
    circuit.absorb direction false data (layout.holding direction work) ≠
      (.refused error, left) := by
  intro hrefused
  have hgiven := hsimulates.absorb direction work data
  rw [hrefused] at hgiven
  cases habsorb : machine.absorb direction work data with
  | error failure =>
      rw [habsorb] at hgiven
      obtain ⟨_, hbroken, -⟩ := hgiven
      cases hbroken
  | ok fed =>
      rw [habsorb] at hgiven
      cases hgiven

/-- So an end that may be tried again is no end in a wrong state: it is a mistake of the machine. -/
theorem Circuit.Simulates.conclude_ne_invalidState (hsimulates : circuit.Simulates machine layout)
    (hreports : machine.Reports) {tag : Bytes} {other : Direction} {state : SessionState} :
    circuit.conclude direction false tag (layout.holding direction work) ≠
      (.retry (.invalidState other state), left) := by
  intro hretry
  obtain ⟨_, hgiven, -⟩ := hsimulates.conclude direction work tag
  rw [hretry, Prod.mk.injEq] at hgiven
  have hmistake := hreports.conclude direction work tag
  rw [← hgiven.1] at hmistake
  cases hmistake

end Simulates

namespace Shows

variable {device : Device} {session : Session}

theorem inOrder {traffic : Traffic} (hshows : Shows device session)
    (hcarries : session.Carries traffic) : device.InOrder traffic := by
  obtain ⟨session, registers, hholds, -⟩ := hshows
  exact session.mode.inOrder hholds hcarries

/-- The registers are set where the session enters the work, and elsewhere the state refuses. -/
theorem isSet (hshows : Shows device session) : device.IsSet := by
  obtain ⟨session, registers, hholds, -⟩ := hshows
  have hsimulates := session.mode.simulates session.key session.iv
  intro direction beginning hbegin
  cases henter : session.progress.enter session.machine direction with
  | error error =>
      rw [Session.deviceWith, Session.state, SessionState.begin_eq_error henter] at hbegin
      cases hbegin
  | ok work =>
      obtain ⟨first, hfirst, habsorb, hconclude⟩ := hsimulates.begin_eq_ok hholds henter
      cases hbegin.symm.trans hfirst
      exact ⟨fun data error left hrefused ↦
          hsimulates.absorb_ne_refused ((habsorb data).symm.trans hrefused),
        fun tag other state left hretry ↦
          hsimulates.conclude_ne_invalidState session.reports ((hconclude tag).symm.trans hretry)⟩

end Shows

namespace Session

/-- A session is created, any run of calls is made on it, and its device is used alike. Then state
and registers of the device are in order:

* in chaining the engine is idle and nothing is pending before the first call, the engine is set for
  the direction while the device is under way, and nothing is pending afterwards. After `n` bytes,
  however they were cut, encryption has released the first `16 * (n / 16)` bytes of the ciphertext
  and keeps the rest of the message; decryption has released the first `16 * ((n - 1) / 16)` bytes
  of the plaintext and keeps the rest of the ciphertext, which is one block at most.
* In counter mode there is a keystream exactly while the device is under way, and the device is not
  poisoned before `2 ^ 128` blocks have been given.
* In the other modes data is kept only while the device is under way.

A call that the state lets through is never refused by the registers. -/
theorem bookkeeping_exact {mode : Mode} {key iv tag : Bytes} {created : Session}
    (hcreate : Session.create mode key iv tag = .ok created) (operations : List Operation) :
    (created.device.after operations).InOrder (created.traffic operations) ∧
    (created.device.after operations).IsSet ∧
    created.device.trace operations = created.trace operations := by
  have hshows := (shows_device hcreate).after operations
  exact ⟨hshows.inOrder (carries_traffic hcreate operations), hshows.isSet,
    trace_device hcreate operations⟩

/-- A block of ciphertext is held back by a new device: it is all that is pending when a call in the
other direction has been refused and nothing more has been fed. -/
theorem bookkeeping_exact_aligned :
    ∃ created, Session.create .cbc (Bytes.zeros 32) (Bytes.zeros 16) [] = .ok created ∧
      created.traffic [.feed .decrypt (Bytes.zeros 16), .feed .encrypt [1], .feed .decrypt []] =
        ⟨Bytes.zeros 16, []⟩ ∧
      created.device.after
          [.feed .decrypt (Bytes.zeros 16), .feed .encrypt [1], .feed .decrypt []] =
        ⟨.cbc, 0, 0, [], .decrypting, ⟨.decrypting 0, Bytes.zeros 16⟩⟩ ∧
      Cbc.InOrder (Aes.cipher 0) 0 ⟨.decrypting 0, Bytes.zeros 16⟩ ⟨Bytes.zeros 16, []⟩
        .decrypting := by
  have hkey : (Bytes.zeros 32).toBits? 256 = some 0 := by decide
  have hiv : (Bytes.zeros 16).toBits? 128 = some 0 := by decide
  have hcreate : Session.create .cbc (Bytes.zeros 32) (Bytes.zeros 16) [] =
      .ok ⟨.cbc, 0, 0, [], .fresh⟩ := create_eq_ok_iff.mpr ⟨_, _, hkey, hiv, rfl⟩
  refine ⟨_, hcreate, rfl, rfl, ?_⟩
  exact (bookkeeping_exact hcreate
    [.feed .decrypt (Bytes.zeros 16), .feed .encrypt [1], .feed .decrypt []]).1

end Session

end SealedStore

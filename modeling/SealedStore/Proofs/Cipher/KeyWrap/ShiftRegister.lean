import SealedStore.Proofs.Cipher.KeyWrap.Inverse

/-!
# Key wrapping as a shift register

The standard defines key wrapping twice: as a register that is shifted once per step, and as steps
made in place by two nested loops. Here both stand beside the passes over a list by which keys are
wrapped. Read `finalize_eq_register` first: a session answers what the shift register holds after
its last step, the loops count the steps from one without a gap and without an overflow, and
unwrapping goes through the same numbers backwards.

* `register_eq_passes`: after as many steps as a pass has, the register has turned once, and it
  holds what the pass has left behind.
* `foldl_turnAt_visits`, `foldl_returnAt_visits`: the loops make the passes and take them back.
* `map_counter_visits`: the counter of the loops is the number of the step.
-/

namespace SealedStore.KeyWrap

/-- The check value with the semiblocks. -/
abbrev Registers := Semiblock × List Semiblock

variable (cipher : BlockCipher)

/-! ## The shift register -/

/-- One step: the check value and the semiblock in front are encrypted. The first half of the block,
marked with the number of the step, is the new check value, and the second half comes in at the
other end while all other semiblocks move up. -/
def shift (registers : Registers) (step : Nat) : Registers :=
  match registers with
  | (check, []) => (check, [])
  | (check, first :: rest) =>
      let block := cipher.encrypt (check ++ first)
      (high block ^^^ BitVec.ofNat 64 step, rest ++ [low block])

/-- What the register holds after so many steps. -/
def register (key : List Semiblock) : (steps : Nat) → Registers
  | 0 => (initialValue, key)
  | steps + 1 => shift cipher (register key steps) (steps + 1)

theorem register_add (key : List Semiblock) (steps more : Nat) :
    register cipher key (steps + more) =
      (List.range' (steps + 1) more).foldl (shift cipher) (register cipher key steps) := by
  induction more with
  | zero => rfl
  | succ more ih =>
      have hlast : steps + 1 + 1 * more = steps + more + 1 := by omega
      rw [← Nat.add_assoc, register, ih, List.range'_concat, List.foldl_append, hlast]
      rfl

/-- When all semiblocks in front have gone through, the pass over them stands behind the others. -/
theorem foldl_shift (check : Semiblock) (step : Nat) (front others : List Semiblock) :
    (List.range' step front.length).foldl (shift cipher) (check, front ++ others) =
      ((pass cipher check step front).1, others ++ (pass cipher check step front).2) := by
  induction front generalizing check step others with
  | nil => simp [pass]
  | cons semiblock rest ih =>
      rw [List.length_cons, List.range'_succ, List.foldl_cons, List.cons_append, shift]
      rw [List.append_assoc, ih]
      simp [pass]

/-- After whole passes the register is in its first order again. -/
theorem register_eq_passes (key : List Semiblock) (count : Nat) :
    register cipher key (key.length * count) = passes cipher initialValue key count := by
  induction count with
  | zero => rfl
  | succ count ih =>
      have hlength := length_passes cipher initialValue key count
      have hpass := foldl_shift cipher (passes cipher initialValue key count).1
        (key.length * count + 1) (passes cipher initialValue key count).2 []
      rw [hlength, List.append_nil, List.nil_append] at hpass
      rw [Nat.mul_succ, register_add, ih]
      exact hpass

/-- The standard's example of a key of two semiblocks. -/
example :
    register (Aes.cipher 0x000102030405060708090a0b0c0d0e0f101112131415161718191a1b1c1d1e1f)
        [0x0011223344556677, 0x8899aabbccddeeff] 12 =
      (0x64e8c3f9ce0f5ba2, [0x63e9777905818a2a, 0x93c8191e7d6e8ae7]) := by
  decide +kernel

/-! ## The nested loops -/

/-- Where the nested loops come by: in every pass at every index. -/
def visits (length count : Nat) : List (Nat × Nat) :=
  (List.range count).flatMap fun pass ↦ (List.range length).map fun index ↦ (pass, index)

/-- The counter of the loops, in machine words. -/
def counter (length : Nat) (visit : Nat × Nat) : BitVec 64 :=
  BitVec.ofNat 64 length * BitVec.ofNat 64 visit.1 + BitVec.ofNat 64 visit.2 + 1

/-- A step made in place. -/
def turnAt (length : Nat) (registers : Registers) (visit : Nat × Nat) : Registers :=
  match registers.2[visit.2]? with
  | none => registers
  | some semiblock =>
      let block := cipher.encrypt (registers.1 ++ semiblock)
      (high block ^^^ counter length visit, registers.2.set visit.2 (low block))

/-- A step taken back in place. -/
def returnAt (length : Nat) (registers : Registers) (visit : Nat × Nat) : Registers :=
  match registers.2[visit.2]? with
  | none => registers
  | some semiblock =>
      let block := cipher.decrypt ((registers.1 ^^^ counter length visit) ++ semiblock)
      (high block, registers.2.set visit.2 (low block))

theorem counter_eq (length : Nat) (visit : Nat × Nat) :
    counter length visit = BitVec.ofNat 64 (length * visit.1 + visit.2 + 1) := by
  rw [counter, BitVec.ofNat_add, BitVec.ofNat_add, BitVec.ofNat_mul]
  rfl

theorem visits_succ (length count : Nat) :
    visits length (count + 1) =
      visits length count ++ (List.range length).map fun index ↦ (count, index) := by
  rw [visits, List.range_succ, List.flatMap_append, List.flatMap_singleton]
  rfl

/-- The loops count the steps through. -/
theorem map_number_visits (length count : Nat) :
    ((visits length count).map fun visit ↦ length * visit.1 + visit.2 + 1) =
      List.range' 1 (length * count) := by
  induction count with
  | zero => rfl
  | succ count ih =>
      have hpass : (List.range length).map (fun index ↦ length * count + index + 1) =
          List.range' (1 + length * count) length := by
        rw [List.range'_eq_map_range]
        refine List.map_congr_left fun index _ ↦ ?_
        omega
      rw [visits_succ, List.map_append, ih, List.map_map, Nat.mul_succ, ← List.range'_append_1,
        ← hpass]
      rfl

/-- One round of the inner loop is a pass over what is not done yet. -/
theorem foldl_turnAt (length count : Nat) (check : Semiblock) (done left : List Semiblock) :
    ((List.range' done.length left.length).map fun index ↦ (count, index)).foldl
        (turnAt cipher length) (check, done ++ left) =
      ((pass cipher check (length * count + done.length + 1) left).1,
        done ++ (pass cipher check (length * count + done.length + 1) left).2) := by
  induction left generalizing check done with
  | nil => rfl
  | cons semiblock rest ih =>
      have hfound : (done ++ semiblock :: rest)[done.length]? = some semiblock := by simp
      have hset : ∀ other, (done ++ semiblock :: rest).set done.length other =
          (done ++ [other]) ++ rest := by simp
      rw [List.length_cons, List.range'_succ, List.map_cons, List.foldl_cons, turnAt]
      dsimp only
      rw [hfound]
      dsimp only
      rw [hset, counter_eq]
      have hrest := ih (high (cipher.encrypt (check ++ semiblock)) ^^^
        BitVec.ofNat 64 (length * count + done.length + 1))
        (done ++ [low (cipher.encrypt (check ++ semiblock))])
      rw [List.length_append, List.length_singleton] at hrest
      rw [hrest, pass]
      simp [Nat.add_assoc]

/-- The rounds of the inner loop taken back, from the last index down, take back the pass. -/
theorem foldl_returnAt (length count : Nat) (check : Semiblock) (done left : List Semiblock) :
    ((List.range' done.length left.length).map fun index ↦ (count, index)).reverse.foldl
        (returnAt cipher length) (check, done ++ left) =
      ((unpass cipher check (length * count + done.length + 1) left).1,
        done ++ (unpass cipher check (length * count + done.length + 1) left).2) := by
  induction left generalizing done with
  | nil => rfl
  | cons semiblock rest ih =>
      have hrest := ih (done ++ [semiblock])
      rw [List.length_append, List.length_singleton, List.append_assoc, List.singleton_append]
        at hrest
      rw [List.length_cons, List.range'_succ, List.map_cons, List.reverse_cons, List.foldl_append,
        hrest, List.foldl_cons, List.foldl_nil, returnAt]
      simp [counter_eq, unpass, Nat.add_assoc]

/-- The loops make the passes one after the other. -/
theorem foldl_turnAt_visits (check : Semiblock) (key : List Semiblock) (count : Nat) :
    (visits key.length count).foldl (turnAt cipher key.length) (check, key) =
      passes cipher check key count := by
  induction count with
  | zero => rfl
  | succ count ih =>
      have hpass := foldl_turnAt cipher key.length count (passes cipher check key count).1 []
        (passes cipher check key count).2
      rw [length_passes, List.length_nil, ← List.range_eq_range'] at hpass
      rw [visits_succ, List.foldl_append, ih]
      exact hpass

/-- The loops run backwards take the passes back. -/
theorem foldl_returnAt_visits (check : Semiblock) (wrapped : List Semiblock) (count : Nat) :
    (visits wrapped.length count).reverse.foldl (returnAt cipher wrapped.length) (check, wrapped) =
      unpasses cipher check wrapped count := by
  induction count generalizing check wrapped with
  | zero => rfl
  | succ count ih =>
      have hpass := foldl_returnAt cipher wrapped.length count check [] wrapped
      rw [List.length_nil, ← List.range_eq_range', List.nil_append, List.nil_append] at hpass
      have hrest := ih (unpass cipher check (wrapped.length * count + 1) wrapped).1
        (unpass cipher check (wrapped.length * count + 1) wrapped).2
      rw [length_unpass] at hrest
      rw [visits_succ, List.reverse_append, List.foldl_append, hpass]
      exact hrest

/-! ## The counter -/

/-- The longest byte string that fits in memory. -/
def memoryLimit : Nat := 0x7fffffffffffffff

/-- For all keys that fit in memory the counter is the number of the step: nothing overflows. -/
theorem toNat_counter {length : Nat} (hlength : semiblockLength * length ≤ memoryLimit)
    {visit : Nat × Nat} (hvisit : visit ∈ visits length passCount) :
    (counter length visit).toNat = length * visit.1 + visit.2 + 1 := by
  have hnumber : length * visit.1 + visit.2 + 1 ∈ List.range' 1 (length * passCount) := by
    rw [← map_number_visits]
    exact List.mem_map_of_mem hvisit
  rw [List.mem_range'_1] at hnumber
  unfold semiblockLength memoryLimit at hlength
  unfold passCount at hnumber
  rw [counter_eq, BitVec.toNat_ofNat]
  exact Nat.mod_eq_of_lt (by omega)

theorem map_counter_visits {length : Nat} (hlength : semiblockLength * length ≤ memoryLimit) :
    ((visits length passCount).map fun visit ↦ (counter length visit).toNat) =
      List.range' 1 (passCount * length) := by
  rw [Nat.mul_comm, ← map_number_visits]
  exact List.map_congr_left fun visit hvisit ↦ toNat_counter hlength hvisit

/-! ## Sessions -/

/-- The check value and the semiblocks, one after the other. -/
def Registers.bytes (registers : Registers) : Bytes :=
  Bytes.ofWords (registers.1 :: registers.2)

/-- Until the end a session for wrapping releases nothing. -/
theorem finalize_feed (key : Aes.Key) (direction : Direction) (data : Bytes) :
    (((session key).feed direction data).2.finalize direction).1 =
      ((machine (Aes.cipher key)).message direction data []).map (·.1) := by
  have hfeed : (session key).feed direction data =
      (.ok [], { session key with progress := .active direction data }) := rfl
  have hanswer : ((session key).process direction data).1 =
      ((machine (Aes.cipher key)).message direction data []).map (·.1) :=
    Session.process_eq_message rfl
  rw [← hanswer, Session.process, hfeed]
  dsimp only
  cases Session.finalize direction { session key with progress := .active direction data } with
  | mk answer ended => cases answer <;> rfl

/-- Over a master key of the right length there are sessions, and once a key was fed, the end of
wrapping answers what the shift register of the standard holds after six steps for each semiblock.
The same is in the registers after the nested loops of steps in place; and the end of unwrapping is
decided by the check value that the loops, run backwards with the same counter, give back. For all
keys that fit in memory that counter takes the values from one on in their order, and no
computation of it overflows. -/
theorem finalize_eq_register (masterKey : Bytes) (hmaster : masterKey.length = Aes.keyLength) :
    ∃ session key, masterKey.toBits? 256 = some key ∧
      Session.create .keyWrap masterKey [] [] = .ok session ∧
      (∀ data, IsKeyLength data.length →
        ((session.feed .encrypt data).2.finalize .encrypt).1 =
            .ok (register (Aes.cipher key) data.semiblocks
              (passCount * data.semiblocks.length)).bytes ∧
          (visits data.semiblocks.length passCount).foldl
              (turnAt (Aes.cipher key) data.semiblocks.length) (initialValue, data.semiblocks) =
            register (Aes.cipher key) data.semiblocks (passCount * data.semiblocks.length)) ∧
      (∀ wrapped check rest, IsWrappedLength wrapped.length → wrapped.semiblocks = check :: rest →
        ((session.feed .decrypt wrapped).2.finalize .decrypt).1 =
          match (visits rest.length passCount).reverse.foldl
              (returnAt (Aes.cipher key) rest.length) (check, rest) with
          | (reached, semiblocks) =>
              if reached = initialValue then .ok (Bytes.ofWords semiblocks)
              else .error .keyIntegrityFailure) ∧
      ∀ length, semiblockLength * length ≤ memoryLimit →
        ((visits length passCount).map fun visit ↦ (counter length visit).toNat) =
            List.range' 1 (passCount * length) ∧
          ∀ visit ∈ visits length passCount,
            (counter length visit).toNat = length * visit.1 + visit.2 + 1 := by
  obtain ⟨key, hkey, hcreate⟩ := exists_create_eq_ok hmaster
  have hregister (data : Bytes) :
      register (Aes.cipher key) data.semiblocks (passCount * data.semiblocks.length) =
        passes (Aes.cipher key) initialValue data.semiblocks passCount := by
    rw [Nat.mul_comm, register_eq_passes]
  refine ⟨session key, key, hkey, hcreate, fun data hdata ↦ ⟨?_, ?_⟩,
    fun wrapped check rest hwrapped hsemiblocks ↦ ?_,
    fun length hlength ↦ ⟨map_counter_visits hlength, fun visit ↦ toNat_counter hlength⟩⟩
  · rw [finalize_feed, hregister, (message_encrypt_eq_ok_iff _).mpr ⟨hdata, rfl, rfl⟩]
    rfl
  · rw [hregister, foldl_turnAt_visits]
  · obtain ⟨_, _, hsame, hanswer⟩ := message_decrypt (Aes.cipher key) hwrapped []
    rw [hsemiblocks] at hsame
    cases hsame
    rw [finalize_feed, foldl_returnAt_visits, hanswer]
    dsimp only
    split <;> rfl

theorem finalize_eq_register_zeros :
    ∃ session, Session.create .keyWrap (Bytes.zeros 32) [] [] = .ok session ∧
      ((session.feed .encrypt (Bytes.zeros 16)).2.finalize .encrypt).1 =
        .ok (register (Aes.cipher 0) [0, 0] 12).bytes := by
  obtain ⟨session, key, hkey, hcreate, hwrap, -⟩ := finalize_eq_register (Bytes.zeros 32) rfl
  have hzeros : (Bytes.zeros 32).toBits? 256 = some 0 := by decide
  obtain rfl : key = 0 := Option.some.inj (hkey.symm.trans hzeros)
  have hsemiblocks : (Bytes.zeros 16).semiblocks = [0, 0] := by decide
  have hanswer := (hwrap (Bytes.zeros 16) ⟨rfl, by decide⟩).1
  rw [hsemiblocks] at hanswer
  exact ⟨session, hcreate, hanswer⟩

end SealedStore.KeyWrap

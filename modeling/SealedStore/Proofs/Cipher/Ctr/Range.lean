import SealedStore.Proofs.Cipher.Ctr
import SealedStore.Proofs.Facility

/-!
# Messages from a block on

The counter block of an index starts a keystream that is the keystream of the whole message from
that index on (`keystream_counterBlock`), wherever the counter wraps. So the end of a ciphertext is
the ciphertext of the end of the message (`drop_ciphertext`), and a session that is made for it
reads it without the rest: `read_from_block`.
-/

namespace SealedStore.Ctr

/-- Indices add up. -/
theorem counterBlock_counterBlock (iv : Block) (first index : Nat) :
    counterBlock (counterBlock iv first) index = counterBlock iv (first + index) := by
  rw [counterBlock, counterBlock, counterBlock, BitVec.add_assoc, ← BitVec.ofNat_add]

theorem keystream_counterBlock (cipher : BlockCipher) (iv : Block) (first : Nat) :
    keystream cipher (counterBlock iv first) = fun index ↦ keystream cipher iv (first + index) := by
  funext index
  rw [keystream, keystream, counterBlock_counterBlock]

/-- The end of a ciphertext from a block on is the ciphertext of the end of the message, under the
counter block of its index. -/
theorem drop_ciphertext (cipher : BlockCipher) (iv : Block) {index : Nat} {message : Bytes}
    (hindex : blockLength * index ≤ message.length) :
    (ciphertext cipher iv message).drop (blockLength * index) =
      ciphertext cipher (counterBlock iv index) (message.drop (blockLength * index)) := by
  have hfront : (message.take (blockLength * index)).length = blockLength * index := by
    rw [List.length_take, Nat.min_eq_left hindex]
  have hsplit : ciphertext cipher iv message =
      ciphertext cipher iv (message.take (blockLength * index)) ++
        ciphertext cipher (counterBlock iv index) (message.drop (blockLength * index)) := by
    rw [ciphertext, ciphertext, ciphertext, keystream_counterBlock, ← Keystream.mask_add,
      Nat.add_zero]
    have hpieces := Keystream.mask_append (keystream cipher iv) 0
      (message.take (blockLength * index)) (message.drop (blockLength * index))
    rwa [List.take_append_drop, hfront, Nat.zero_add] at hpieces
  rw [hsplit, List.drop_left' (by rw [length_ciphertext, hfront])]

/-- The end of a message takes no more blocks than the message. -/
theorem blockCount_drop_le (count : Nat) (message : Bytes) :
    blockCount (message.drop count) ≤ blockCount message := by
  rw [blockCount, blockCount, List.length_drop]
  exact Nat.div_le_div_right (by omega)

/-! ## Counter blocks as bytes -/

theorem counterBlockFor_eq_ok_iff {iv start : Bytes} {index : Nat} :
    counterBlockFor iv index = .ok start ↔
      ∃ typedIv, iv.toBits? 128 = some typedIv ∧
        start = Bytes.ofBits (counterBlock typedIv index) := by
  unfold counterBlockFor
  cases iv.toBits? 128 with
  | none => simp
  | some typedIv => simp [eq_comm]

/-- Only the last bytes of a number are written. -/
theorem ofNat_mod_capacity (count value : Nat) :
    Bytes.ofNat count (value % Bytes.capacity count) = Bytes.ofNat count value := by
  have hback := Bytes.ofNat_toNat (Bytes.ofNat count value)
  rwa [Bytes.length_ofNat, Bytes.toNat_ofNat] at hback

/-- A counter block is the IV as a number with the index added to it, written in 16 bytes without a
carry. -/
theorem eq_ofNat_of_counterBlockFor {iv start : Bytes} {index : Nat}
    (hstart : counterBlockFor iv index = .ok start) :
    start = Bytes.ofNat blockLength (Bytes.toNat iv + index) := by
  obtain ⟨typedIv, htyped, rfl⟩ := counterBlockFor_eq_ok_iff.mp hstart
  have hnumber : typedIv = BitVec.ofNat 128 (Bytes.toNat iv) := by
    unfold Bytes.toBits? at htyped
    split at htyped
    next => cases htyped; rfl
    next => cases htyped
  rw [hnumber, counterBlock, ← BitVec.ofNat_add, Bytes.ofBits]
  have hword := Bytes.toNat_word 16 (Bytes.toNat iv + index)
  rw [show (BitVec.ofNat 128 (Bytes.toNat iv + index)).toNat = _ from hword]
  exact ofNat_mod_capacity 16 _

/-- The counter block of an index has counter blocks of its own: those of the indices added up. -/
theorem counterBlockFor_of_counterBlockFor {iv start : Bytes} {first : Nat}
    (hstart : counterBlockFor iv first = .ok start) (index : Nat) :
    counterBlockFor start index = counterBlockFor iv (first + index) := by
  obtain ⟨typedIv, htyped, rfl⟩ := counterBlockFor_eq_ok_iff.mp hstart
  have hback : (Bytes.ofBits (counterBlock typedIv first)).toBits? 128 =
      some (counterBlock typedIv first) := @Bytes.toBits?_ofBits 16 _
  simp only [counterBlockFor, htyped, hback, counterBlock_counterBlock]

/-! ## Sessions -/

/-- A fresh session in counter mode under a key and an IV. -/
def fresh (key : Aes.Key) (iv : Block) : Session := ⟨.ctr, key, iv, [], .fresh⟩

/-- A key and an IV of the right lengths give such a session, and so does every counter block of
that IV. -/
theorem exists_create_eq_ok {keyBytes ivBytes : Bytes} (hkey : keyBytes.length = Aes.keyLength)
    (hiv : ivBytes.length = Mode.ctr.ivLength) :
    ∃ (key : Aes.Key) (iv : Block), Session.create .ctr keyBytes ivBytes [] = .ok (fresh key iv) ∧
      ∀ index, counterBlockFor ivBytes index = .ok (Bytes.ofBits (counterBlock iv index)) ∧
        Session.create .ctr keyBytes (Bytes.ofBits (counterBlock iv index)) [] =
          .ok (fresh key (counterBlock iv index)) := by
  obtain ⟨key, iv, htypedKey, htypedIv, hcreate⟩ := @Session.exists_create_eq_ok .ctr _ ivBytes hkey
    (by rw [hiv]; rfl)
  refine ⟨key, iv, hcreate [], fun index ↦ ⟨?_, ?_⟩⟩
  · exact counterBlockFor_eq_ok_iff.mpr ⟨iv, htypedIv, rfl⟩
  · exact Session.create_eq_ok_iff.mpr ⟨key, _, htypedKey, @Bytes.toBits?_ofBits 16 _, rfl⟩

/-- A whole message finalizes such a session, or else the counters are used up. -/
theorem process_eq {key : Aes.Key} {iv : Block} {direction : Direction} {data : Bytes} :
    (fresh key iv).process direction data =
      if blockCount data ≤ maxBlocks then
        (.ok (ciphertext (Aes.cipher key) iv data), { fresh key iv with progress := .finalized })
      else (.error .keystreamExhausted, { fresh key iv with progress := .poisoned }) := by
  have hmachine : (fresh key iv).machine.message direction data (fresh key iv).tag =
      if blockCount data ≤ maxBlocks then .ok (ciphertext (Aes.cipher key) iv data, [])
      else .error .keystreamExhausted := message_eq _ _ direction data []
  rw [Session.process_of_message rfl (fun _ _ hretry ↦ by cases hretry), hmachine]
  by_cases hcount : blockCount data ≤ maxBlocks
  · rw [if_pos hcount, if_pos hcount]
    rfl
  · rw [if_neg hcount, if_neg hcount]

/-- A message is answered exactly when the counters last for it, and then with its mask. -/
theorem process_eq_ok_iff {key : Aes.Key} {iv : Block} {direction : Direction}
    {data output : Bytes} :
    ((fresh key iv).process direction data).1 = .ok output ↔
      blockCount data ≤ maxBlocks ∧ output = ciphertext (Aes.cipher key) iv data := by
  rw [process_eq]
  by_cases hcount : blockCount data ≤ maxBlocks <;> simp [hcount, eq_comm]

/-- In chunks, such a session gives what it gives in one piece. -/
theorem joined_run_inChunks (key : Aes.Key) (iv : Block) (direction : Direction)
    (chunks : List Bytes) :
    Session.joined ((fresh key iv).run (Session.inChunks direction chunks)).1 =
      ((fresh key iv).process direction chunks.flatten).1 := by
  have hstreams : (fresh key iv).machine.Streams := streams (Aes.cipher key) iv
  exact congrArg Prod.fst (Session.run_inChunks_of_ready hstreams
    (Session.ready_of_fresh hstreams rfl) chunks)

/-- Under a key and an IV of the right lengths there is a session, which encrypts every message that
does not use up the counters. The counter block of any index is the IV with the index added to it,
modulo the number of counters; the counter blocks that start from there are those of the indices
added up; and a session for it, fed in chunks with the ciphertext of a message from the block of
that index on, gives the message from there on. -/
theorem read_from_block {keyBytes ivBytes : Bytes} (hkey : keyBytes.length = Aes.keyLength)
    (hiv : ivBytes.length = Mode.ctr.ivLength) :
    ∃ writer, Session.create .ctr keyBytes ivBytes [] = .ok writer ∧
      (∀ message, blockCount message ≤ maxBlocks →
        ∃ data, (writer.process .encrypt message).1 = .ok data) ∧
      ∀ index, ∃ start reader, counterBlockFor ivBytes index = .ok start ∧
        start = Bytes.ofNat blockLength (Bytes.toNat ivBytes + index) ∧
        (∀ other, counterBlockFor start other = counterBlockFor ivBytes (index + other)) ∧
        Session.create .ctr keyBytes start [] = .ok reader ∧
        ∀ message data chunks, (writer.process .encrypt message).1 = .ok data →
          blockLength * index ≤ message.length →
          chunks.flatten = data.drop (blockLength * index) →
          Session.joined (reader.run (Session.inChunks .decrypt chunks)).1 =
            .ok (message.drop (blockLength * index)) := by
  obtain ⟨key, iv, hcreate, hblocks⟩ := exists_create_eq_ok hkey hiv
  refine ⟨fresh key iv, hcreate, fun message hcount ↦ ?_, fun index ↦ ?_⟩
  · exact ⟨_, process_eq_ok_iff.mpr ⟨hcount, rfl⟩⟩
  · obtain ⟨hstart, hreader⟩ := hblocks index
    refine ⟨_, _, hstart, eq_ofNat_of_counterBlockFor hstart,
      counterBlockFor_of_counterBlockFor hstart, hreader, ?_⟩
    intro message data chunks hdata hindex hchunks
    obtain ⟨hcount, rfl⟩ := process_eq_ok_iff.mp hdata
    rw [joined_run_inChunks, hchunks, drop_ciphertext _ _ hindex, process_eq_ok_iff]
    refine ⟨?_, by rw [ciphertext_ciphertext]⟩
    rw [blockCount_ciphertext]
    exact Nat.le_trans (blockCount_drop_le _ _) hcount

/-- The counter wraps after the first block of this message; the rest is read in two chunks. -/
theorem read_from_block_wrapping :
    (Bytes.zeros Aes.keyLength).length = Aes.keyLength ∧
      (List.replicate blockLength 0xff : Bytes).length = Mode.ctr.ivLength ∧
      ∃ writer data reader,
        Session.create .ctr (Bytes.zeros Aes.keyLength) (List.replicate blockLength 0xff) [] =
          .ok writer ∧
        (writer.process .encrypt (Bytes.zeros 20)).1 = .ok data ∧
        Session.create .ctr (Bytes.zeros Aes.keyLength) (Bytes.zeros blockLength) [] = .ok reader ∧
        Session.joined (reader.run (Session.inChunks .decrypt
          [(data.drop 16).take 1, (data.drop 16).drop 1])).1 = .ok (Bytes.zeros 4) := by
  have hkey : (Bytes.zeros Aes.keyLength).length = Aes.keyLength := by decide
  have hiv : (List.replicate blockLength 0xff : Bytes).length = Mode.ctr.ivLength := by decide
  obtain ⟨writer, hwriter, hencrypts, hread⟩ := read_from_block hkey hiv
  obtain ⟨data, hdata⟩ := hencrypts (Bytes.zeros 20) (by decide)
  obtain ⟨start, reader, -, hstart, -, hreader, hrest⟩ := hread 1
  have hzero : start = Bytes.zeros blockLength := hstart.trans (by decide)
  refine ⟨hkey, hiv, writer, data, reader, hwriter, hdata, hzero ▸ hreader, ?_⟩
  exact hrest _ data _ hdata (by decide) (by
    rw [List.flatten_cons, List.flatten_singleton, List.take_append_drop, Nat.mul_one]; rfl)

end SealedStore.Ctr

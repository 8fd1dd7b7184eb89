import SealedStore.Proofs.Cipher.Streaming
import SealedStore.Proofs.Outcome

/-!
# Cipher block chaining, both ways

The ciphertext of a message is that of its padded blocks (`message_encrypt`), and reading succeeds
with a message exactly on its ciphertext (`message_decrypt_eq_ok_iff`). Blocks that are cut by the
end of a piece of data are carried over to the next (`streams`).
-/

namespace SealedStore

namespace Bytes

/-- Pieces of whole size are taken from the first part of a byte string before the second. -/
theorem pieces_append {size first : Nat} (second : Nat) {left : Bytes} (right : Bytes)
    (hleft : left.length = size * first) :
    pieces size (first + second) (left ++ right) =
      pieces size first left ++ pieces size second right := by
  induction first generalizing left with
  | zero =>
      have hnil : left = [] := List.eq_nil_of_length_eq_zero (by simpa using hleft)
      simp [hnil, pieces]
  | succ first ih =>
      have hsize : size ≤ left.length := by rw [hleft, Nat.mul_succ]; omega
      have hdrop : (left.drop size).length = size * first := by
        rw [List.length_drop, hleft, Nat.mul_succ]; omega
      rw [Nat.add_right_comm, pieces, pieces, List.take_append_of_le_length hsize,
        List.drop_append_of_le_length hsize, ih hdrop, List.cons_append]

/-- The words of two byte strings, the first of whole words, are those of one and the other. -/
theorem words_append {size : Nat} (hsize : 0 < size) {left : Bytes} (right : Bytes)
    (hleft : size ∣ left.length) :
    words size (left ++ right) = words size left ++ words size right := by
  obtain ⟨count, hcount⟩ := hleft
  rw [words, words, words, ← List.map_append, List.length_append, hcount, Nat.mul_add_div hsize,
    Nat.mul_div_cancel_left _ hsize, pieces_append _ _ hcount]

theorem blocks_append {left : Bytes} (right : Bytes) (hleft : blockLength ∣ left.length) :
    blocks (left ++ right) = blocks left ++ blocks right :=
  words_append (by decide) right hleft

theorem ofWords_append {width : Nat} (left right : List (BitVec width)) :
    ofWords (left ++ right) = ofWords left ++ ofWords right :=
  List.flatMap_append

theorem length_ofBlocks (blocks : List Block) :
    (ofWords blocks).length = blockLength * blocks.length :=
  @length_ofWords 16 blocks

theorem length_blocks (bytes : Bytes) : bytes.blocks.length = bytes.length / blockLength :=
  length_words _ _

@[simp] theorem blocks_ofBlocks (list : List Block) : blocks (ofWords list) = list :=
  @words_ofWords 16 (by decide) list

theorem ofBlocks_blocks {bytes : Bytes} (hbytes : blockLength ∣ bytes.length) :
    ofWords bytes.blocks = bytes :=
  ofWords_words hbytes

end Bytes

namespace Cbc

variable (cipher : BlockCipher) (chain : Block)

@[simp] theorem decryptBlocks_encryptBlocks (blocks : List Block) :
    decryptBlocks cipher chain (encryptBlocks cipher chain blocks) = blocks := by
  induction blocks generalizing chain with
  | nil => rfl
  | cons block rest ih =>
      rw [encryptBlocks, decryptBlocks, ih, cipher.decrypt_encrypt, BitVec.xor_assoc,
        BitVec.xor_self, BitVec.xor_zero]

@[simp] theorem encryptBlocks_decryptBlocks (blocks : List Block) :
    encryptBlocks cipher chain (decryptBlocks cipher chain blocks) = blocks := by
  induction blocks generalizing chain with
  | nil => rfl
  | cons block rest ih =>
      rw [decryptBlocks, encryptBlocks, BitVec.xor_assoc, BitVec.xor_self, BitVec.xor_zero,
        cipher.encrypt_decrypt, ih]

@[simp] theorem length_encryptBlocks (blocks : List Block) :
    (encryptBlocks cipher chain blocks).length = blocks.length := by
  induction blocks generalizing chain with
  | nil => rfl
  | cons block rest ih => simp [encryptBlocks, ih]

@[simp] theorem length_decryptBlocks (blocks : List Block) :
    (decryptBlocks cipher chain blocks).length = blocks.length := by
  induction blocks generalizing chain with
  | nil => rfl
  | cons block rest ih => simp [decryptBlocks, ih]

/-- Encryption goes on from the last ciphertext block. -/
theorem encryptBlocks_append (left right : List Block) :
    encryptBlocks cipher chain (left ++ right) =
      encryptBlocks cipher chain left ++
        encryptBlocks cipher ((encryptBlocks cipher chain left).getLastD chain) right := by
  induction left generalizing chain with
  | nil => rfl
  | cons block rest ih =>
      simp only [List.cons_append, encryptBlocks, ih, List.getLastD_cons]

/-- So does decryption. -/
theorem decryptBlocks_append (left right : List Block) :
    decryptBlocks cipher chain (left ++ right) =
      decryptBlocks cipher chain left ++ decryptBlocks cipher (left.getLastD chain) right := by
  induction left generalizing chain with
  | nil => rfl
  | cons block rest ih =>
      simp only [List.cons_append, decryptBlocks, ih, List.getLastD_cons]

/-! ## Data in pieces -/

/-- What can be released of some data and more is what can be released at first, and then what can
be released of the rest. -/
theorem ready_add (direction : Direction) (first second : Nat) :
    ready direction (first + second) =
      ready direction first + ready direction (first - ready direction first + second) := by
  cases direction <;> simp only [ready, blockLength] <;> omega

theorem ready_le (direction : Direction) (available : Nat) :
    ready direction available ≤ available := by
  cases direction <;> simp only [ready, blockLength] <;> omega

theorem dvd_ready (direction : Direction) (available : Nat) :
    blockLength ∣ ready direction available := by
  cases direction <;> exact Nat.dvd_mul_right _ _

theorem getLastD_append (left right : List Block) :
    (left ++ right).getLastD chain = right.getLastD (left.getLastD chain) := by
  simp [List.getLastD_eq_getLast?, List.getLast?_append]

/-- Turning goes on from the ciphertext block that came last. -/
theorem turn_append (direction : Direction) (left right : List Block) :
    turn cipher chain direction (left ++ right) =
      ((turn cipher chain direction left).1 ++
          (turn cipher (turn cipher chain direction left).2 direction right).1,
        (turn cipher (turn cipher chain direction left).2 direction right).2) := by
  cases direction with
  | encrypt => simp only [turn, encryptBlocks_append, getLastD_append]
  | decrypt => simp only [turn, decryptBlocks_append, getLastD_append]

/-- Chaining does not see where its data is cut. -/
theorem streams (iv : Block) : (machine cipher iv).Streams where
  absorb_start direction := by
    have hready : ready direction ([] : Bytes).length = 0 := by cases direction <;> rfl
    simp only [machine, List.append_nil, hready, List.take_nil, List.drop_nil]
    cases direction <;> rfl
  absorb_append direction work left right := by
    simp only [machine, bind, Except.bind, pure, Except.pure]
    rw [← List.append_assoc]
    generalize work.pending ++ left = first
    generalize hcount : ready direction first.length = count
    have hle : count ≤ first.length := hcount ▸ ready_le direction first.length
    have hwhole : blockLength ∣ (first.take count).length := by
      rw [List.length_take, Nat.min_eq_left hle, ← hcount]
      exact dvd_ready direction first.length
    have hready : ready direction (first ++ right).length =
        count + ready direction (first.drop count ++ right).length := by
      rw [List.length_append, ready_add, hcount, List.length_append, List.length_drop]
    rw [hready, List.take_add, List.take_append_of_le_length hle, ← List.drop_drop,
      List.drop_append_of_le_length hle, Bytes.blocks_append _ hwhole, turn_append,
      Bytes.ofWords_append]

/-! ## Padding -/

theorem length_pad (bytes : Bytes) :
    (pad bytes).length = blockLength * (bytes.length / blockLength + 1) := by
  simp only [pad, List.length_append, List.length_replicate, blockLength]
  omega

theorem dvd_length_pad (bytes : Bytes) : blockLength ∣ (pad bytes).length := by
  rw [length_pad]
  exact Nat.dvd_mul_right _ _

/-- Whole blocks in front do not change the padding. -/
theorem pad_append {left : Bytes} (right : Bytes) (hleft : blockLength ∣ left.length) :
    pad (left ++ right) = left ++ pad right := by
  have hmod : (left ++ right).length % blockLength = right.length % blockLength := by
    obtain ⟨count, hcount⟩ := hleft
    rw [List.length_append, hcount, Nat.mul_add_mod]
  simp only [pad, hmod, List.append_assoc]

/-- A block from which padding can be taken off is the padded rest. -/
theorem eq_pad_of_unpad {bytes output : Bytes} (hlength : bytes.length = blockLength)
    (hunpad : unpad bytes = .ok output) : bytes = pad output := by
  have hlast : blockLength - 1 < bytes.length := by rw [hlength]; decide
  rw [unpad, List.getElem?_eq_getElem hlast] at hunpad
  generalize bytes[blockLength - 1] = last at hunpad
  dsimp only at hunpad
  split at hunpad
  next hrange =>
    have hslice : bytes.slice? (blockLength - last.toNat) last.toNat =
        some (bytes.drop (blockLength - last.toNat)) := by
      rw [Bytes.slice?, if_pos (by omega), List.take_of_length_le]
      rw [List.length_drop]; omega
    rw [hslice] at hunpad
    dsimp only at hunpad
    split at hunpad
    next hall =>
      have hpadding : bytes.drop (blockLength - last.toNat) = List.replicate last.toNat last := by
        refine List.eq_replicate_iff.mpr ⟨by rw [List.length_drop]; omega, fun byte hbyte ↦ ?_⟩
        simpa using List.all_eq_true.mp hall byte hbyte
      cases hunpad
      -- What is left has room for just as many bytes as were taken off.
      have hcount : blockLength - (bytes.take (blockLength - last.toNat)).length % blockLength =
          last.toNat := by
        rw [List.length_take, hlength]
        unfold blockLength at hrange ⊢
        omega
      rw [pad, hcount, UInt8.ofNat_toNat, ← hpadding, List.take_append_drop]
    next => simp at hunpad
  next => simp at hunpad

/-- From a padded block the padding is taken off. -/
theorem unpad_pad {output : Bytes} (hshort : output.length < blockLength) :
    unpad (pad output) = .ok output := by
  obtain ⟨count, hcount, hpos, hle⟩ : ∃ count, blockLength - output.length % blockLength = count ∧
      1 ≤ count ∧ count ≤ blockLength := by
    rw [Nat.mod_eq_of_lt hshort]
    exact ⟨_, rfl, by omega, by omega⟩
  have hfront : blockLength - count = output.length := by
    rw [Nat.mod_eq_of_lt hshort] at hcount
    omega
  have hvalue : (UInt8.ofNat count).toNat = count := by
    unfold blockLength at hle
    rw [UInt8.toNat_ofNat']
    omega
  have hend : (pad output)[blockLength - 1]? = some (UInt8.ofNat count) := by
    rw [pad, hcount, List.getElem?_append_right (by omega), List.getElem?_replicate,
      if_pos (by omega)]
  have hslice : (pad output).slice? (blockLength - count) count =
      some (List.replicate count (UInt8.ofNat count)) := by
    have hlength : (pad output).length = blockLength := by
      rw [length_pad, Nat.div_eq_of_lt hshort, Nat.zero_add, Nat.mul_one]
    rw [Bytes.slice?, if_pos (by omega), hfront, pad, hcount, List.drop_left,
      List.take_of_length_le (by simp)]
  rw [unpad, hend]
  dsimp only
  rw [hvalue, if_pos ⟨hpos, hle⟩, hslice]
  dsimp only
  rw [if_pos (by simp), hfront, pad, List.take_left]

/-- Padding is taken off exactly where it was put on. -/
theorem unpad_eq_ok_iff {bytes output : Bytes} (hlength : bytes.length = blockLength) :
    unpad bytes = .ok output ↔ bytes = pad output := by
  constructor
  · intro hunpad
    exact eq_pad_of_unpad hlength hunpad
  · intro hpad
    rw [hpad, length_pad] at hlength
    rw [hpad]
    refine unpad_pad ?_
    unfold blockLength at hlength ⊢
    omega

/-- From a whole block either padding is taken off or what stands there is not padding. -/
theorem eq_badPadding_of_unpad {bytes : Bytes} {error : CipherError}
    (hlength : bytes.length = blockLength) (hunpad : unpad bytes = .error error) :
    error = .badPadding := by
  have hlast : blockLength - 1 < bytes.length := by rw [hlength]; decide
  rw [unpad, List.getElem?_eq_getElem hlast] at hunpad
  dsimp only at hunpad
  split at hunpad
  next hrange =>
    rw [Bytes.slice?, if_pos (by omega)] at hunpad
    dsimp only at hunpad
    split at hunpad
    next => cases hunpad
    next => cases hunpad; rfl
  next => cases hunpad; rfl

/-! ## Whole messages -/

variable (iv : Block)

/-- The ciphertext of a message: that of its padded blocks. -/
def ciphertext (message : Bytes) : Bytes :=
  Bytes.ofWords (encryptBlocks cipher iv (pad message).blocks)

/-- Encryption gives the ciphertext, whatever the message. -/
theorem message_encrypt (data tag : Bytes) :
    (machine cipher iv).message .encrypt data tag = .ok (ciphertext cipher iv data, tag) := by
  -- The whole blocks in front are encrypted as they are fed, the padded rest at the end.
  obtain ⟨count, hcount⟩ : ∃ count, ready .encrypt data.length = count := ⟨_, rfl⟩
  have hfront : blockLength ∣ (data.take count).length := by
    rw [List.length_take, ← hcount, ready, Nat.min_eq_left (Nat.mul_div_le _ _)]
    exact Nat.dvd_mul_right _ _
  have hpad : pad data = data.take count ++ pad (data.drop count) := by
    rw [← pad_append _ hfront, List.take_append_drop]
  have hblocks := encryptBlocks_append cipher iv (Bytes.blocks (data.take count))
    (pad (data.drop count)).blocks
  rw [← Bytes.blocks_append _ hfront, ← hpad] at hblocks
  simp only [Machine.message, machine, turn, List.nil_append, hcount]
  rw [ciphertext, hblocks, Bytes.ofWords_append]

theorem message_encrypt_eq_ok_iff {data output tag final : Bytes} :
    (machine cipher iv).message .encrypt data tag = .ok (output, final) ↔
      output = ciphertext cipher iv data ∧ final = tag := by
  rw [message_encrypt, Except.ok.injEq, Prod.mk.injEq, eq_comm, @eq_comm _ tag]

/-- The plaintext blocks of a ciphertext, the padding with them. -/
def paddedPlaintext (data : Bytes) : Bytes :=
  Bytes.ofWords (decryptBlocks cipher iv data.blocks)

/-- What does not end at a block boundary has no plaintext, nor has nothing. -/
theorem message_decrypt_truncated {data : Bytes} (tag : Bytes)
    (hdata : data = [] ∨ ¬ blockLength ∣ data.length) :
    (machine cipher iv).message .decrypt data tag =
      .error (.truncatedCiphertext (data.length % blockLength)) := by
  have hpending : (data.drop (ready .decrypt data.length)).length = data.length % blockLength := by
    rw [List.length_drop, ready]
    rcases hdata with rfl | hdata
    · rfl
    · rw [Nat.dvd_iff_mod_eq_zero] at hdata
      unfold blockLength at hdata ⊢
      omega
  have hshort : data.length % blockLength ≠ blockLength :=
    Nat.ne_of_lt (Nat.mod_lt _ (by decide))
  simp only [Machine.message, machine, List.nil_append, hpending]
  rw [if_pos hshort]

/-- The plaintext of whole blocks is what is left when the last block is unpadded. -/
theorem message_decrypt {data : Bytes} (tag : Bytes) (hne : data ≠ [])
    (haligned : blockLength ∣ data.length) :
    (machine cipher iv).message .decrypt data tag =
      (unpad ((paddedPlaintext cipher iv data).drop (data.length - blockLength))).map fun tail ↦
        ((paddedPlaintext cipher iv data).take (data.length - blockLength) ++ tail, tag) := by
  have hpos : 0 < data.length := List.length_pos_iff.mpr hne
  -- The last block is held back when the others are decrypted.
  have hready : ready .decrypt data.length = data.length - blockLength := by
    obtain ⟨count, hcount⟩ := haligned
    rw [ready, hcount]
    unfold blockLength at hcount ⊢
    omega
  have hle : blockLength ≤ data.length := Nat.le_of_dvd hpos haligned
  generalize hfront : data.length - blockLength = front at hready ⊢
  have htake : (data.take front).length = front := by rw [List.length_take]; omega
  have hdrop : (data.drop front).length = blockLength := by rw [List.length_drop]; omega
  have hwhole : blockLength ∣ front := by
    rw [← hfront]
    exact Nat.dvd_sub haligned (Nat.dvd_refl _)
  have hsplit : paddedPlaintext cipher iv data =
      Bytes.ofWords (decryptBlocks cipher iv (Bytes.blocks (data.take front))) ++
        Bytes.ofWords (decryptBlocks cipher ((Bytes.blocks (data.take front)).getLastD iv)
          (Bytes.blocks (data.drop front))) := by
    rw [paddedPlaintext, ← Bytes.ofWords_append, ← decryptBlocks_append,
      ← Bytes.blocks_append _ (by rw [htake]; exact hwhole), List.take_append_drop]
  have hlength : (Bytes.ofWords (decryptBlocks cipher iv (Bytes.blocks (data.take front)))).length =
      front := by
    rw [Bytes.length_ofBlocks, length_decryptBlocks, Bytes.length_blocks, htake,
      Nat.mul_div_cancel' hwhole]
  rw [hsplit, List.take_left' hlength, List.drop_left' hlength]
  simp only [Machine.message, machine, turn, List.nil_append, hready, hdrop]
  rw [if_neg (by simp)]
  cases unpad _ <;> rfl

theorem dvd_length_ciphertext (message : Bytes) :
    blockLength ∣ (ciphertext cipher iv message).length := by
  rw [ciphertext, Bytes.length_ofBlocks]
  exact Nat.dvd_mul_right _ _

theorem length_ciphertext (message : Bytes) :
    (ciphertext cipher iv message).length = blockLength * (message.length / blockLength + 1) := by
  rw [ciphertext, Bytes.length_ofBlocks, length_encryptBlocks, Bytes.length_blocks, length_pad,
    Nat.mul_div_cancel_left _ (by decide)]

/-- Whole blocks are the ciphertext of a message if their plaintext is the padded message. -/
theorem eq_ciphertext_iff {data message : Bytes} (haligned : blockLength ∣ data.length) :
    data = ciphertext cipher iv message ↔ paddedPlaintext cipher iv data = pad message := by
  constructor
  · rintro rfl
    rw [paddedPlaintext, ciphertext, Bytes.blocks_ofBlocks, decryptBlocks_encryptBlocks,
      Bytes.ofBlocks_blocks (dvd_length_pad message)]
  · intro hplain
    rw [ciphertext, ← hplain, paddedPlaintext, Bytes.blocks_ofBlocks, encryptBlocks_decryptBlocks,
      Bytes.ofBlocks_blocks haligned]

/-- The last block unpads to the rest of a message exactly if all is the padded message. -/
theorem unpad_drop_eq_ok_iff {plain output : Bytes} {front : Nat} (hfront : blockLength ∣ front)
    (hlength : plain.length = front + blockLength) :
    (∃ tail, unpad (plain.drop front) = .ok tail ∧ plain.take front ++ tail = output) ↔
      plain = pad output := by
  have hlast : (plain.drop front).length = blockLength := by rw [List.length_drop]; omega
  have htake : ∀ {other : Bytes}, front ≤ other.length → (other.take front).length = front :=
    fun hle ↦ by rw [List.length_take]; omega
  constructor
  · intro hparts
    obtain ⟨tail, htail, rfl⟩ := hparts
    rw [unpad_eq_ok_iff hlast] at htail
    rw [pad_append _ (by rw [htake (by omega)]; exact hfront), ← htail, List.take_append_drop]
  · intro hplain
    have hle : front ≤ output.length := by
      rw [hplain, length_pad] at hlength
      unfold blockLength at hlength
      omega
    have hpad : plain = output.take front ++ pad (output.drop front) := by
      rw [hplain, ← pad_append _ (by rw [htake hle]; exact hfront), List.take_append_drop]
    refine ⟨output.drop front, ?_, ?_⟩
    · rw [unpad_eq_ok_iff hlast, hpad, List.drop_left' (htake hle)]
    · rw [hpad, List.take_left' (htake hle), List.take_append_drop]

/-- Decryption gives a message exactly when it is given the ciphertext of that message. -/
theorem message_decrypt_eq_ok_iff {data output tag final : Bytes} :
    (machine cipher iv).message .decrypt data tag = .ok (output, final) ↔
      data = ciphertext cipher iv output ∧ final = tag := by
  by_cases hdata : data = [] ∨ ¬ blockLength ∣ data.length
  · rw [message_decrypt_truncated cipher iv tag hdata]
    constructor
    · intro hfailed
      cases hfailed
    · intro hsealed
      obtain ⟨rfl, _⟩ := hsealed
      rcases hdata with hnil | hunaligned
      · have hlength := length_ciphertext cipher iv output
        rw [hnil] at hlength
        unfold blockLength at hlength
        simp at hlength
      · exact absurd (dvd_length_ciphertext cipher iv output) hunaligned
  · obtain ⟨hne, haligned⟩ := not_or.mp hdata
    rw [Decidable.not_not] at haligned
    have hle := Nat.le_of_dvd (List.length_pos_iff.mpr hne) haligned
    have hlength : (paddedPlaintext cipher iv data).length =
        data.length - blockLength + blockLength := by
      rw [paddedPlaintext, Bytes.length_ofBlocks, length_decryptBlocks, Bytes.length_blocks,
        Nat.mul_div_cancel' haligned]
      omega
    rw [message_decrypt cipher iv tag hne haligned, Outcome.map_eq_ok_iff,
      eq_ciphertext_iff cipher iv haligned,
      ← unpad_drop_eq_ok_iff (Nat.dvd_sub haligned (Nat.dvd_refl _)) hlength]
    constructor
    · intro hparts
      obtain ⟨tail, htail, heq⟩ := hparts
      cases heq
      exact ⟨⟨tail, htail, rfl⟩, rfl⟩
    · intro hparts
      obtain ⟨⟨tail, htail, rfl⟩, rfl⟩ := hparts
      exact ⟨tail, htail, rfl⟩

/-- Whole blocks that are the ciphertext of no message do not end in padding. -/
theorem message_decrypt_of_forall_ne {data : Bytes} (tag : Bytes) (hne : data ≠ [])
    (haligned : blockLength ∣ data.length)
    (hnone : ∀ message, data ≠ ciphertext cipher iv message) :
    (machine cipher iv).message .decrypt data tag = .error .badPadding := by
  have hlast : ((paddedPlaintext cipher iv data).drop (data.length - blockLength)).length =
      blockLength := by
    have hle := Nat.le_of_dvd (List.length_pos_iff.mpr hne) haligned
    rw [List.length_drop, paddedPlaintext, Bytes.length_ofBlocks, length_decryptBlocks,
      Bytes.length_blocks, Nat.mul_div_cancel' haligned]
    omega
  cases hmessage : (machine cipher iv).message .decrypt data tag with
  | ok result => exact absurd ((message_decrypt_eq_ok_iff cipher iv).mp hmessage).1 (hnone _)
  | error error =>
      rw [message_decrypt cipher iv tag hne haligned] at hmessage
      cases hunpad : unpad ((paddedPlaintext cipher iv data).drop (data.length - blockLength)) with
      | ok tail =>
          rw [hunpad] at hmessage
          cases hmessage
      | error cause =>
          rw [hunpad] at hmessage
          cases hmessage
          rw [eq_badPadding_of_unpad hlast hunpad]

end Cbc

end SealedStore

import SealedStore.Text.Utf8

/-!
# UTF-8 reads back what it writes

A character is read from its bytes whatever follows them (`decodeFrom_encodeChar`), and so is a
text (`decode_encode`).
-/

namespace SealedStore.Utf8

theorem toNat_continuation (bits : Nat) : (continuation bits).toNat = 0x80 + bits % 64 := by
  rw [continuation, UInt8.toNat_ofNat']
  omega

/-- A continuation byte within the bounds adds its six bits to the code. -/
theorem readCode_continuation {count taken code bits : Nat} {low high : UInt8} {rest : Bytes}
    (hlow : low.toNat ≤ 0x80 + bits % 64) (hhigh : 0x80 + bits % 64 ≤ high.toNat) :
    readCode (count + 1) low high taken code (continuation bits :: rest) =
      readCode count 0x80 0xbf (taken + 1) (code * 64 + bits % 64) rest := by
  rw [readCode, if_pos, toNat_continuation, Nat.add_sub_cancel_left]
  rw [UInt8.le_iff_toNat_le, UInt8.le_iff_toNat_le, toNat_continuation]
  exact ⟨hlow, hhigh⟩

/-- Bytes that belong to the character before are passed over. -/
theorem decodeFrom_skip (position : Nat) (skipped rest : Bytes) :
    decodeFrom position skipped.length (skipped ++ rest) =
      decodeFrom (position + skipped.length) 0 rest := by
  induction skipped generalizing position with
  | nil => rfl
  | cons byte others ih =>
      rw [List.cons_append, List.length_cons, decodeFrom, ih, Nat.add_right_comm, Nat.add_assoc]

/-- The first byte announces what follows, and what follows completes the code. -/
theorem decodeFrom_cons {position : Nat} {first : UInt8} {others rest : Bytes} {lead : Lead}
    {char : Char} (hlead : lead? first = some lead) (hlength : others.length = lead.following)
    (hcode : readCode lead.following lead.low lead.high 1 lead.bits (others ++ rest) =
      .ok char.toNat) :
    decodeFrom position 0 (first :: others ++ rest) =
      (char :: ·) <$> decodeFrom (position + (others.length + 1)) 0 rest := by
  rw [List.cons_append, decodeFrom, hlead]
  dsimp only
  rw [hcode]
  dsimp only
  rw [Char.ofNat_toNat, ← hlength, decodeFrom_skip, Nat.add_right_comm, Nat.add_assoc]

/-- The codes of characters are not those of surrogates, nor beyond the last. -/
theorem toNat_valid (char : Char) :
    char.toNat < 0xd800 ∨ 0xdfff < char.toNat ∧ char.toNat < 0x110000 :=
  char.valid

/-- What the first byte of two announces. -/
theorem lead?_two {code : Nat} (hlow : 0x80 ≤ code) (hhigh : code < 0x800) :
    lead? (UInt8.ofNat (0xc0 + code / 64)) = some ⟨1, 0x80, 0xbf, code / 64⟩ := by
  have hfirst : (UInt8.ofNat (0xc0 + code / 64)).toNat = 0xc0 + code / 64 := by
    rw [UInt8.toNat_ofNat']; omega
  rw [lead?, hfirst]
  grind

/-- What the first byte of three announces. Its bounds let the next byte of a character through. -/
theorem lead?_three (code : Nat) (hlow : 0x800 ≤ code) (hhigh : code < 0x10000)
    (hvalid : code < 0xd800 ∨ 0xdfff < code) :
    ∃ low high : UInt8,
      lead? (UInt8.ofNat (0xe0 + code / 4096)) = some ⟨2, low, high, code / 4096⟩ ∧
        low.toNat ≤ 0x80 + code / 64 % 64 ∧ 0x80 + code / 64 % 64 ≤ high.toNat := by
  have hfirst : (UInt8.ofNat (0xe0 + code / 4096)).toNat = 0xe0 + code / 4096 := by
    rw [UInt8.toNat_ofNat']; omega
  rw [lead?, hfirst]
  -- The bounds are narrower before long forms of short codes and before surrogates.
  by_cases hzero : code / 4096 = 0
  · refine ⟨0xa0, 0xbf, by grind, ?_, ?_⟩ <;> simp only [UInt8.reduceToNat] <;> omega
  · by_cases hsurrogates : code / 4096 = 13
    · refine ⟨0x80, 0x9f, by grind, ?_, ?_⟩ <;> simp only [UInt8.reduceToNat] <;> omega
    · refine ⟨0x80, 0xbf, by grind, ?_, ?_⟩ <;> simp only [UInt8.reduceToNat] <;> omega

/-- What the first byte of four announces. -/
theorem lead?_four (code : Nat) (hlow : 0x10000 ≤ code) (hhigh : code < 0x110000) :
    ∃ low high : UInt8,
      lead? (UInt8.ofNat (0xf0 + code / 262144)) = some ⟨3, low, high, code / 262144⟩ ∧
        low.toNat ≤ 0x80 + code / 4096 % 64 ∧ 0x80 + code / 4096 % 64 ≤ high.toNat := by
  have hfirst : (UInt8.ofNat (0xf0 + code / 262144)).toNat = 0xf0 + code / 262144 := by
    rw [UInt8.toNat_ofNat']; omega
  rw [lead?, hfirst]
  -- They are narrower again before long forms, and before codes beyond the last.
  by_cases hzero : code / 262144 = 0
  · refine ⟨0x90, 0xbf, by grind, ?_, ?_⟩ <;> simp only [UInt8.reduceToNat] <;> omega
  · by_cases hlast : code / 262144 = 4
    · refine ⟨0x80, 0x8f, by grind, ?_, ?_⟩ <;> simp only [UInt8.reduceToNat] <;> omega
    · refine ⟨0x80, 0xbf, by grind, ?_, ?_⟩ <;> simp only [UInt8.reduceToNat] <;> omega

/-- A continuation byte without further bounds always goes on. -/
theorem readCode_continuation_free {count taken code bits : Nat} {rest : Bytes} :
    readCode (count + 1) 0x80 0xbf taken code (continuation bits :: rest) =
      readCode count 0x80 0xbf (taken + 1) (code * 64 + bits % 64) rest := by
  refine readCode_continuation ?_ ?_ <;> simp only [UInt8.reduceToNat] <;> omega

/-- A character is read from its bytes, whatever follows them. -/
theorem decodeFrom_encodeChar (position : Nat) (char : Char) (rest : Bytes) :
    decodeFrom position 0 (encodeChar char ++ rest) =
      (char :: ·) <$> decodeFrom (position + (encodeChar char).length) 0 rest := by
  have hvalid := toNat_valid char
  unfold encodeChar
  generalize hcode : char.toNat = code at hvalid
  dsimp only
  -- There is a case for each number of bytes, from one to four.
  split
  next hone =>
    have hfirst : (UInt8.ofNat code).toNat = code := by rw [UInt8.toNat_ofNat']; omega
    have hlead : lead? (UInt8.ofNat code) = some ⟨0, 0, 0, code⟩ := by
      rw [lead?, hfirst, if_pos hone]
    refine decodeFrom_cons hlead rfl ?_
    rw [hcode]
    rfl
  next hone =>
    split
    next htwo =>
      refine decodeFrom_cons (lead?_two (by omega) htwo) rfl ?_
      dsimp only [List.cons_append, List.nil_append]
      rw [readCode_continuation_free, readCode, hcode]
      congr 1
      omega
    next htwo =>
      split
      next hthree =>
        obtain ⟨low, high, hlead, hlow, hhigh⟩ :=
          lead?_three code (by omega) hthree (by omega)
        refine decodeFrom_cons hlead rfl ?_
        dsimp only [List.cons_append, List.nil_append]
        rw [readCode_continuation hlow hhigh, readCode_continuation_free, readCode, hcode]
        congr 1
        omega
      next hthree =>
        obtain ⟨low, high, hlead, hlow, hhigh⟩ :=
          lead?_four code (by omega) (by omega)
        refine decodeFrom_cons hlead rfl ?_
        dsimp only [List.cons_append, List.nil_append]
        rw [readCode_continuation hlow hhigh, readCode_continuation_free,
          readCode_continuation_free, readCode, hcode]
        congr 1
        omega

/-- Characters are read from their bytes. -/
theorem decodeFrom_flatMap_encodeChar (position : Nat) (chars : List Char) :
    decodeFrom position 0 (chars.flatMap encodeChar) = .ok chars := by
  induction chars generalizing position with
  | nil => rfl
  | cons char rest ih =>
      rw [List.flatMap_cons, decodeFrom_encodeChar, ih]
      rfl

/-- A text is read from its bytes. -/
theorem decode_encode (text : String) : decode (encode text) = .ok text := by
  rw [decode, encode, decodeFrom_flatMap_encodeChar]
  show Except.ok (String.ofList text.toList) = .ok text
  rw [String.ofList_toList]

/-- Different texts have different bytes. -/
theorem encode_injective {left right : String} (hbytes : encode left = encode right) :
    left = right := by
  have hdecode := congrArg decode hbytes
  rw [decode_encode, decode_encode] at hdecode
  exact Except.ok.inj hdecode

/-! ## Characters of one byte -/

theorem toNat_ofNat {code : Nat} (hvalid : code.isValidChar) : (Char.ofNat code).toNat = code := by
  rw [Char.ofNat, dif_pos hvalid]
  rfl

/-- A text of ASCII is written with one byte for each character. -/
theorem encode_ofList {bytes : Bytes} (hascii : ∀ byte ∈ bytes, byte.toNat < 0x80) :
    encode (String.ofList (bytes.map fun byte ↦ Char.ofNat byte.toNat)) = bytes := by
  rw [encode, String.toList_ofList]
  induction bytes with
  | nil => rfl
  | cons byte rest ih =>
      have hbyte := hascii byte List.mem_cons_self
      rw [List.map_cons, List.flatMap_cons,
        ih fun other hother ↦ hascii other (List.mem_cons_of_mem _ hother)]
      simp only [encodeChar, toNat_ofNat (.inl (Nat.lt_trans hbyte (by decide))), if_pos hbyte,
        UInt8.ofNat_toNat, List.cons_append, List.nil_append]

end SealedStore.Utf8

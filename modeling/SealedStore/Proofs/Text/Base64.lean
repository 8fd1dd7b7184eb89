import SealedStore.Proofs.Text.Blank
import SealedStore.Proofs.Text.Utf8
import SealedStore.Text.Base64

/-!
# Base64 reads back what it writes

A byte string is three bytes at a time the list of its sextets, numbers below 64; writing writes
those as symbols, and reading joins them again (`decodeBytes_encodeBytes`).
-/

namespace SealedStore.Base64

/-- The numbers of six bits that a byte string is made of, the last filled up with zero bits. -/
def sextets : Bytes → List Nat
  | [] => []
  | [a] => [a.toNat / 4, a.toNat % 4 * 16]
  | [a, b] => [a.toNat / 4, a.toNat % 4 * 16 + b.toNat / 16, b.toNat % 16 * 4]
  | a :: b :: c :: rest =>
      a.toNat / 4 :: (a.toNat % 4 * 16 + b.toNat / 16) ::
        (b.toNat % 16 * 4 + c.toNat / 64) :: c.toNat % 64 :: sextets rest

/-! ## Symbols -/

theorem value?_symbol {value : Nat} (hvalue : value < 64) : value? (symbol value) = some value := by
  have hall : ∀ value, value < 64 → value? (symbol value) = some value := by decide
  exact hall value hvalue

theorem symbol_ne_padding {value : Nat} (hvalue : value < 64) : symbol value ≠ padding := by
  have hall : ∀ value, value < 64 → symbol value ≠ padding := by decide
  exact hall value hvalue

theorem lt_of_mem_sextets {bytes : Bytes} {value : Nat} (hvalue : value ∈ sextets bytes) :
    value < 64 := by
  induction bytes using sextets.induct with
  | case1 => simp [sextets] at hvalue
  | case2 a =>
      have ha := a.toNat_lt
      simp only [sextets, List.mem_cons, List.not_mem_nil, or_false] at hvalue
      omega
  | case3 a b =>
      have ha := a.toNat_lt
      have hb := b.toNat_lt
      simp only [sextets, List.mem_cons, List.not_mem_nil, or_false] at hvalue
      omega
  | case4 a b c rest ih =>
      have ha := a.toNat_lt
      have hb := b.toNat_lt
      have hc := c.toNat_lt
      simp only [sextets, List.mem_cons] at hvalue
      rcases hvalue with h | h | h | h | h
      · omega
      · omega
      · omega
      · omega
      · exact ih h

/-- Symbols are read as their values. -/
theorem readSymbols_map_symbol {values : List Nat} (hvalues : ∀ value ∈ values, value < 64)
    (offset : Nat) : readSymbols offset (values.map symbol) = .ok values := by
  induction values generalizing offset with
  | nil => rfl
  | cons value rest ih =>
      have hrest := ih (fun other hother ↦ hvalues other (List.mem_cons_of_mem _ hother))
        (offset + 1)
      rw [List.map_cons, readSymbols, value?_symbol (hvalues value List.mem_cons_self), hrest]
      rfl

/-! ## Byte strings of whole quads -/

/-- Whole groups of three bytes are written without padding. -/
theorem encodeBytes_append {front : Bytes} (last : Bytes) (hfront : 3 ∣ front.length) :
    encodeBytes (front ++ last) = (sextets front).map symbol ++ encodeBytes last := by
  induction front using sextets.induct with
  | case1 => rfl
  | case2 a => simp at hfront
  | case3 a b => simp at hfront
  | case4 a b c rest ih =>
      have hrest : 3 ∣ rest.length := by
        simp only [List.length_cons] at hfront
        omega
      simp only [List.cons_append, encodeBytes, sextets, List.map_cons, ih hrest]

theorem length_sextets {front : Bytes} (hfront : 3 ∣ front.length) :
    (sextets front).length = 4 * (front.length / 3) := by
  induction front using sextets.induct with
  | case1 => rfl
  | case2 a => simp at hfront
  | case3 a b => simp at hfront
  | case4 a b c rest ih =>
      simp only [List.length_cons] at hfront
      have hlength := ih (by omega)
      simp only [sextets, List.length_cons, hlength]
      omega

/-- The sextets of whole groups of three bytes join to those bytes. -/
theorem joinValues_append {front : Bytes} (last : List Nat) (hfront : 3 ∣ front.length) :
    joinValues (sextets front ++ last) = front ++ joinValues last := by
  induction front using sextets.induct with
  | case1 => rfl
  | case2 a => simp at hfront
  | case3 a b => simp at hfront
  | case4 a b c rest ih =>
      have hrest : 3 ∣ rest.length := by
        simp only [List.length_cons] at hfront
        omega
      have ha := a.toNat_lt
      have hb := b.toNat_lt
      have hc := c.toNat_lt
      simp only [sextets, List.cons_append, joinValues, ih hrest]
      rw [show a.toNat / 4 * 4 + (a.toNat % 4 * 16 + b.toNat / 16) / 16 = a.toNat by omega,
        show (a.toNat % 4 * 16 + b.toNat / 16) % 16 * 16 + (b.toNat % 16 * 4 + c.toNat / 64) / 4 =
          b.toNat by omega,
        show (b.toNat % 16 * 4 + c.toNat / 64) % 4 * 64 + c.toNat % 64 = c.toNat by omega,
        UInt8.ofNat_toNat, UInt8.ofNat_toNat, UInt8.ofNat_toNat]

/-! ## The last quad -/

/-- The tail is read as its symbols and the padding behind them. -/
theorem readTail_append {values : List Nat} (offset place filling : Nat)
    (hvalues : ∀ value ∈ values, value < 64) (hplace : filling = 0 ∨ 2 ≤ place + values.length) :
    readTail offset place (values.map symbol ++ List.replicate filling padding) =
      .ok (values, List.replicate filling padding) := by
  induction values generalizing offset place with
  | nil =>
      cases filling with
      | zero => rfl
      | succ filling =>
          have hle : ¬ place < 2 := by simp at hplace; omega
          have hcheck : checkPadding offset (List.replicate filling padding) = .ok () :=
            if_pos (by simp)
          rw [List.map_nil, List.nil_append, List.replicate_succ, readTail, if_pos rfl, if_neg hle,
            hcheck]
          rfl
  | cons value rest ih =>
      have hvalue := hvalues value List.mem_cons_self
      have hrest := ih (offset + 1) (place + 1)
        (fun other hother ↦ hvalues other (List.mem_cons_of_mem _ hother))
        (by simp only [List.length_cons] at hplace; omega)
      rw [List.map_cons, List.cons_append, readTail, if_neg (symbol_ne_padding hvalue),
        value?_symbol hvalue, hrest]
      rfl

/-- One to three bytes stand in the last quad: they are written with padding up to four places, and
their sextets leave no bits over and join to them. -/
theorem encodeBytes_last {last : Bytes} (hpos : 0 < last.length) (hle : last.length ≤ 3) :
    encodeBytes last =
        (sextets last).map symbol ++ List.replicate (3 - last.length) padding ∧
      (sextets last).length = last.length + 1 ∧ leftover (sextets last) = 0 ∧
      joinValues (sextets last) = last := by
  match last, hpos, hle with
  | [a], _, _ =>
      have ha := a.toNat_lt
      refine ⟨rfl, rfl, ?_, ?_⟩
      · simp only [sextets, leftover]; omega
      · simp only [sextets, joinValues]
        rw [show a.toNat / 4 * 4 + a.toNat % 4 * 16 / 16 = a.toNat by omega, UInt8.ofNat_toNat]
  | [a, b], _, _ =>
      have ha := a.toNat_lt
      have hb := b.toNat_lt
      refine ⟨rfl, rfl, ?_, ?_⟩
      · simp only [sextets, leftover]; omega
      · simp only [sextets, joinValues]
        rw [show a.toNat / 4 * 4 + (a.toNat % 4 * 16 + b.toNat / 16) / 16 = a.toNat by omega,
          show (a.toNat % 4 * 16 + b.toNat / 16) % 16 * 16 + b.toNat % 16 * 4 / 4 = b.toNat
            by omega,
          UInt8.ofNat_toNat, UInt8.ofNat_toNat]
  | [a, b, c], _, _ =>
      refine ⟨rfl, rfl, rfl, ?_⟩
      have hjoin := @joinValues_append [a, b, c] [] (by simp)
      rwa [List.append_nil] at hjoin

/-- All but the last one to three bytes are whole groups of three. -/
theorem exists_append_last {bytes : Bytes} (hne : bytes ≠ []) :
    ∃ front last, bytes = front ++ last ∧ 3 ∣ front.length ∧ 0 < last.length ∧
      last.length ≤ 3 := by
  have hlength := List.length_pos_iff.mpr hne
  refine ⟨bytes.take (3 * ((bytes.length - 1) / 3)), bytes.drop (3 * ((bytes.length - 1) / 3)),
    (List.take_append_drop _ _).symm, ?_, ?_, ?_⟩
  · rw [List.length_take, Nat.min_eq_left (by omega)]
    exact Nat.dvd_mul_right _ _
  · rw [List.length_drop]; omega
  · rw [List.length_drop]; omega

/-- What is written is read back. -/
theorem decodeBytes_encodeBytes (bytes : Bytes) : decodeBytes (encodeBytes bytes) = .ok bytes := by
  by_cases hnil : bytes = []
  · subst hnil
    rfl
  -- The last one to three bytes fill the last quad, those before them the quads before it.
  obtain ⟨front, last, rfl, hfront, hpos, hle⟩ := exists_append_last hnil
  obtain ⟨hlast, hcount, hleftover, hjoin⟩ := encodeBytes_last hpos hle
  have hquads := length_sextets hfront
  have hencoded := encodeBytes_append last hfront
  have hlength : (encodeBytes (front ++ last)).length = 4 * (front.length / 3) + 4 := by
    rw [hencoded, hlast]
    simp only [List.length_append, List.length_map, List.length_replicate, hquads, hcount]
    omega
  have hstart : 4 * ((4 * (front.length / 3) + 4 - 1) / 4) = 4 * (front.length / 3) := by omega
  have hhead : (encodeBytes (front ++ last)).take (4 * (front.length / 3)) =
      (sextets front).map symbol := by
    rw [hencoded, List.take_left' (by rw [List.length_map, hquads])]
  have htail : (encodeBytes (front ++ last)).drop (4 * (front.length / 3)) =
      (sextets last).map symbol ++ List.replicate (3 - last.length) padding := by
    rw [hencoded, List.drop_left' (by rw [List.length_map, hquads]), hlast]
  have hread := readTail_append (4 * (front.length / 3)) 0 (3 - last.length)
    (fun value ↦ lt_of_mem_sextets) (show _ ∨ 2 ≤ 0 + (sextets last).length by omega)
  unfold decodeBytes
  rw [hlength, if_neg (by omega), hstart, hhead, htail,
    readSymbols_map_symbol (fun value ↦ lt_of_mem_sextets), hread]
  simp only [pure, Except.pure, bind, Except.bind]
  rw [if_neg (by omega), if_neg (by rw [List.length_replicate, hcount]; omega),
    if_neg (by rw [hleftover]; decide), joinValues_append _ hfront, hjoin]

/-! ## As a text -/

/-- What is written is the symbols of the sextets with padding behind them. -/
theorem encodeBytes_eq (bytes : Bytes) : ∃ filling,
    encodeBytes bytes = (sextets bytes).map symbol ++ List.replicate filling padding := by
  induction bytes using sextets.induct with
  | case1 => exact ⟨0, rfl⟩
  | case2 a => exact ⟨2, rfl⟩
  | case3 a b => exact ⟨1, rfl⟩
  | case4 a b c rest ih =>
      obtain ⟨filling, hrest⟩ := ih
      exact ⟨filling, by simp only [encodeBytes, sextets, hrest, List.map_cons, List.cons_append]⟩

/-- Whether a byte is a character of ASCII that shows. -/
def IsVisible (byte : UInt8) : Prop :=
  0x21 ≤ byte.toNat ∧ byte.toNat < 0x7f

theorem isVisible_symbol {value : Nat} (hvalue : value < 64) : IsVisible (symbol value) := by
  have hall : ∀ value, value < 64 → 0x21 ≤ (symbol value).toNat ∧ (symbol value).toNat < 0x7f := by
    decide
  exact hall value hvalue

theorem isVisible_of_mem_encodeBytes {bytes : Bytes} {byte : UInt8}
    (hbyte : byte ∈ encodeBytes bytes) : IsVisible byte := by
  obtain ⟨filling, hbytes⟩ := encodeBytes_eq bytes
  rw [hbytes, List.mem_append] at hbyte
  rcases hbyte with hsymbol | hpadding
  · obtain ⟨value, hvalue, rfl⟩ := List.mem_map.mp hsymbol
    exact isVisible_symbol (lt_of_mem_sextets hvalue)
  · rw [List.eq_of_mem_replicate hpadding]
    exact ⟨by decide, by decide⟩

theorem not_isBlank_of_isVisible {byte : UInt8} (hbyte : IsVisible byte) :
    ¬ Blank.isBlank (Char.ofNat byte.toNat) := by
  obtain ⟨hlow, hhigh⟩ := hbyte
  simp only [Blank.isBlank, Utf8.toNat_ofNat (.inl (Nat.lt_trans hhigh (by decide))),
    Bool.or_eq_true, Bool.and_eq_true, decide_eq_true_eq, beq_iff_eq]
  omega

/-- The text of a byte string has no blanks to trim. -/
theorem trim_encode (bytes : Bytes) : Blank.trim (encode bytes) = encode bytes := by
  refine Blank.trim_eq_self fun char hchar ↦ ?_
  rw [encode, String.toList_ofList] at hchar
  obtain ⟨byte, hbyte, rfl⟩ := List.mem_map.mp hchar
  exact not_isBlank_of_isVisible (isVisible_of_mem_encodeBytes hbyte)

/-- The text of a byte string is ASCII. -/
theorem utf8_encode (bytes : Bytes) : Utf8.encode (encode bytes) = encodeBytes bytes :=
  Utf8.encode_ofList fun _ hbyte ↦
    Nat.lt_trans (isVisible_of_mem_encodeBytes hbyte).2 (by decide)

/-- The text of a byte string is read back, whether or not it is trimmed before. -/
theorem decodeBytes_encode (bytes : Bytes) :
    decodeBytes (Utf8.encode (Blank.trim (encode bytes))) = .ok bytes := by
  rw [trim_encode, utf8_encode, decodeBytes_encodeBytes]

end SealedStore.Base64

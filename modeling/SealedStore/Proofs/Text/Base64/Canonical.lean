import SealedStore.Proofs.Outcome
import SealedStore.Proofs.Text.Base64

/-!
# Base64 reads nothing but what it writes

A reader that is this strict gives each byte string one writing only: what it takes is symbols of
sextets with padding behind them, of which the last leaves no bits over, and that is how the bytes
that it gives are written (`decodeBytes_eq_ok_iff`).
-/

namespace SealedStore.Base64

variable {bytes output filling : Bytes} {values head tail : List Nat} {offset place : Nat}

/-! ## What is read -/

/-- A byte that has a value is its symbol. -/
theorem eq_symbol_of_value? {byte : UInt8} {value : Nat} (hvalue : value? byte = some value) :
    byte = symbol value ∧ value < 64 := by
  have hall : ∀ code, code < 256 → ∀ value ∈ value? (UInt8.ofNat code),
      UInt8.ofNat code = symbol value ∧ value < 64 := by decide +kernel
  have hcode := hall byte.toNat byte.toNat_lt value
  rw [UInt8.ofNat_toNat] at hcode
  exact hcode hvalue

theorem eq_map_symbol_of_readSymbols (hread : readSymbols offset bytes = .ok values) :
    bytes = values.map symbol ∧ ∀ value ∈ values, value < 64 := by
  induction bytes generalizing offset values with
  | nil =>
      cases hread
      exact ⟨rfl, nofun⟩
  | cons byte rest ih =>
      unfold readSymbols at hread
      split at hread
      next => cases hread
      next value hvalue =>
        obtain ⟨others, hothers, rfl⟩ := Outcome.map_eq_ok_iff.mp hread
        obtain ⟨hrest, hlt⟩ := ih hothers
        obtain ⟨hbyte, hbound⟩ := eq_symbol_of_value? hvalue
        rw [List.map_cons, ← hrest, ← hbyte, List.forall_mem_cons]
        exact ⟨rfl, hbound, hlt⟩

/-- The tail is symbols and then padding. -/
theorem eq_append_of_readTail (hread : readTail offset place bytes = .ok (values, filling)) :
    bytes = values.map symbol ++ List.replicate filling.length padding ∧
      ∀ value ∈ values, value < 64 := by
  induction bytes generalizing offset place values with
  | nil =>
      cases hread
      exact ⟨rfl, nofun⟩
  | cons byte rest ih =>
      unfold readTail at hread
      split at hread
      next hpadding =>
        split at hread
        next => cases hread
        next =>
          obtain ⟨_, hcheck, hpair⟩ := Outcome.map_eq_ok_iff.mp hread
          cases hpair
          unfold checkPadding at hcheck
          split at hcheck
          next hall =>
            refine ⟨List.eq_replicate_of_mem ?_, nofun⟩
            rw [List.forall_mem_cons]
            exact ⟨hpadding, fun other hother ↦
              of_decide_eq_true (List.all_eq_true.mp hall other hother)⟩
          next => cases hcheck
      next =>
        split at hread
        next => cases hread
        next value hvalue =>
          obtain ⟨⟨others, _⟩, hothers, hpair⟩ := Outcome.map_eq_ok_iff.mp hread
          cases hpair
          obtain ⟨hrest, hlt⟩ := ih hothers
          obtain ⟨hbyte, hbound⟩ := eq_symbol_of_value? hvalue
          rw [List.map_cons, List.cons_append, ← hrest, ← hbyte, List.forall_mem_cons]
          exact ⟨rfl, hbound, hlt⟩

/-! ## How it is written -/

/-- Whole quads of values are written as their symbols. -/
theorem encodeBytes_joinValues_append (tail : List Nat) (hquads : 4 ∣ head.length)
    (hhead : ∀ value ∈ head, value < 64) :
    encodeBytes (joinValues (head ++ tail)) = head.map symbol ++ encodeBytes (joinValues tail) := by
  induction head using joinValues.induct with
  | case1 a b c d rest ih =>
      simp only [List.forall_mem_cons] at hhead
      obtain ⟨ha, hb, hc, hd, hrest⟩ := hhead
      have hfirst : (UInt8.ofNat (a * 4 + b / 16)).toNat = a * 4 + b / 16 :=
        UInt8.toNat_ofNat_of_lt (by rw [UInt8.size]; omega)
      have hsecond : (UInt8.ofNat (b % 16 * 16 + c / 4)).toNat = b % 16 * 16 + c / 4 :=
        UInt8.toNat_ofNat_of_lt (by rw [UInt8.size]; omega)
      have hthird : (UInt8.ofNat (c % 4 * 64 + d)).toNat = c % 4 * 64 + d :=
        UInt8.toNat_ofNat_of_lt (by rw [UInt8.size]; omega)
      simp only [List.length_cons] at hquads
      simp only [List.cons_append, joinValues, encodeBytes, List.map_cons, hfirst, hsecond, hthird,
        ih (by omega) hrest]
      rw [show (a * 4 + b / 16) / 4 = a by omega,
        show (a * 4 + b / 16) % 4 * 16 + (b % 16 * 16 + c / 4) / 16 = b by omega,
        show (b % 16 * 16 + c / 4) % 16 * 4 + (c % 4 * 64 + d) / 64 = c by omega,
        show (c % 4 * 64 + d) % 64 = d by omega]
  | case2 a b c => simp at hquads
  | case3 a b => simp at hquads
  | case4 others hfour hthree htwo =>
      rcases others with - | ⟨a, - | ⟨b, - | ⟨c, - | ⟨d, rest⟩⟩⟩⟩
      · rfl
      · simp at hquads
      · exact absurd rfl (htwo a b)
      · exact absurd rfl (hthree a b c)
      · exact absurd rfl (hfour a b c d rest)

/-- Two to four values that leave no bits over are written as their symbols and padding. -/
theorem encodeBytes_joinValues (htail : ∀ value ∈ tail, value < 64) (hlow : 2 ≤ tail.length)
    (hhigh : tail.length ≤ 4) (hleftover : leftover tail = 0) :
    encodeBytes (joinValues tail) =
      tail.map symbol ++ List.replicate (4 - tail.length) padding := by
  match tail, hlow, hhigh with
  | [a, b], _, _ =>
      simp only [List.forall_mem_cons] at htail
      obtain ⟨ha, hb, -⟩ := htail
      rw [leftover] at hleftover
      have hfirst : (UInt8.ofNat (a * 4 + b / 16)).toNat = a * 4 + b / 16 :=
        UInt8.toNat_ofNat_of_lt (by rw [UInt8.size]; omega)
      simp only [joinValues, encodeBytes, hfirst]
      rw [show (a * 4 + b / 16) / 4 = a by omega, show (a * 4 + b / 16) % 4 * 16 = b by omega]
      rfl
  | [a, b, c], _, _ =>
      simp only [List.forall_mem_cons] at htail
      obtain ⟨ha, hb, hc, -⟩ := htail
      rw [leftover] at hleftover
      have hfirst : (UInt8.ofNat (a * 4 + b / 16)).toNat = a * 4 + b / 16 :=
        UInt8.toNat_ofNat_of_lt (by rw [UInt8.size]; omega)
      have hsecond : (UInt8.ofNat (b % 16 * 16 + c / 4)).toNat = b % 16 * 16 + c / 4 :=
        UInt8.toNat_ofNat_of_lt (by rw [UInt8.size]; omega)
      simp only [joinValues, encodeBytes, hfirst, hsecond]
      rw [show (a * 4 + b / 16) / 4 = a by omega,
        show (a * 4 + b / 16) % 4 * 16 + (b % 16 * 16 + c / 4) / 16 = b by omega,
        show (b % 16 * 16 + c / 4) % 16 * 4 = c by omega]
      rfl
  | [a, b, c, d], _, _ =>
      have hquad := encodeBytes_joinValues_append []
        (show 4 ∣ [a, b, c, d].length from Nat.dvd_refl 4) htail
      rwa [List.append_nil] at hquad

/-! ## The two together -/

/-- What a reader has found when it gives an answer. -/
theorem exists_of_decodeBytes {start : Nat} (hnil : bytes ≠ [])
    (hstart : start = 4 * ((bytes.length - 1) / 4)) (hdecode : decodeBytes bytes = .ok output) :
    ∃ head tail filling, readSymbols 0 (bytes.take start) = .ok head ∧
      readTail start 0 (bytes.drop start) = .ok (tail, filling) ∧ 2 ≤ tail.length ∧
      (tail.length + filling.length) % 4 = 0 ∧
      (leftover tail = 0 ∨ bytes.length ≤ start + tail.length - 1) ∧
      output = joinValues (head ++ tail) := by
  subst hstart
  unfold decodeBytes at hdecode
  extract_lets start rest at hdecode
  -- The first check only tells one failure from another.
  have hrest : rest () = .ok output := by
    split at hdecode
    next =>
      split at hdecode
      next =>
        split at hdecode
        next => cases hdecode
        next => exact hdecode
      next => exact hdecode
    next => exact hdecode
  obtain ⟨head, hhead, hafter⟩ := Outcome.bind_eq_ok_iff.mp hrest
  obtain ⟨⟨tail, filling⟩, htail, hchecks⟩ := Outcome.bind_eq_ok_iff.mp hafter
  dsimp only at hchecks
  split at hchecks
  next => cases hchecks
  next hcount =>
    split at hchecks
    next => cases hchecks
    next hfilled =>
      refine ⟨head, tail, filling, hhead, htail, ?_, Decidable.not_not.mp hfilled, ?_⟩
      · exact Nat.not_lt.mp fun hlt ↦ hcount ⟨hnil, hlt⟩
      split at hchecks
      next =>
        split at hchecks
        next => cases hchecks
        next hlast =>
          have hnone := Option.eq_none_iff_forall_ne_some.mpr hlast
          cases hchecks
          exact ⟨.inr (List.getElem?_eq_none_iff.mp hnone), rfl⟩
      next hleftover =>
        cases hchecks
        exact ⟨.inl (Decidable.not_not.mp hleftover), rfl⟩

/-- What is read is what is written. The tail cannot be cut short: with its padding it is as long as
what is left of the byte string after the quads before it. -/
theorem eq_encodeBytes_of_decodeBytes (hdecode : decodeBytes bytes = .ok output) :
    bytes = encodeBytes output := by
  by_cases hnil : bytes = []
  · subst hnil
    cases hdecode
    rfl
  have hpos := List.length_pos_iff.mpr hnil
  obtain ⟨start, hstart⟩ : ∃ start, start = 4 * ((bytes.length - 1) / 4) := ⟨_, rfl⟩
  obtain ⟨head, tail, filling, hhead, htail, hlow, hfilled, hleftover, rfl⟩ :=
    exists_of_decodeBytes hnil hstart hdecode
  obtain ⟨hfront, hheadLt⟩ := eq_map_symbol_of_readSymbols hhead
  obtain ⟨hback, htailLt⟩ := eq_append_of_readTail htail
  have hfrontLength := congrArg List.length hfront
  have hbackLength := congrArg List.length hback
  simp only [List.length_take, List.length_drop, List.length_append, List.length_map,
    List.length_replicate] at hfrontLength hbackLength
  have hcount : filling.length = 4 - tail.length := by omega
  calc bytes = bytes.take start ++ bytes.drop start := (List.take_append_drop _ _).symm
    _ = head.map symbol ++ (tail.map symbol ++ List.replicate (4 - tail.length) padding) := by
      rw [hfront, hback, hcount]
    _ = head.map symbol ++ encodeBytes (joinValues tail) := by
      rw [encodeBytes_joinValues htailLt hlow (by omega) (hleftover.resolve_right (by omega))]
    _ = encodeBytes (joinValues (head ++ tail)) :=
      (encodeBytes_joinValues_append tail (by omega) hheadLt).symm

theorem decodeBytes_eq_ok_iff : decodeBytes bytes = .ok output ↔ bytes = encodeBytes output := by
  constructor
  · exact eq_encodeBytes_of_decodeBytes
  · intro hbytes
    rw [hbytes, decodeBytes_encodeBytes]

/-- A text is base64 of some bytes exactly if it is their text. -/
theorem decodeBytes_encode_eq_ok_iff {text : String} :
    decodeBytes (Utf8.encode text) = .ok output ↔ text = encode output := by
  rw [decodeBytes_eq_ok_iff]
  constructor
  · intro hbytes
    rw [← utf8_encode output] at hbytes
    exact Utf8.encode_injective hbytes
  · intro htext
    rw [htext, utf8_encode]

end SealedStore.Base64

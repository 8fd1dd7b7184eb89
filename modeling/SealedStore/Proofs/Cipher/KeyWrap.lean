import SealedStore.Proofs.Cipher.Streaming

/-!
# Unwrapping undoes wrapping

The steps of a pass are taken back one by one, the passes one by one, and the check value comes out
as it went in (`message_decrypt_wrap`). Steps that were taken back lead to where they began as well
(`passes_unpasses`), so a key is unwrapped exactly from what it is wrapped to
(`message_decrypt_eq_ok_iff`).
-/

namespace SealedStore.KeyWrap

@[simp] theorem high_append (check semiblock : Semiblock) : high (check ++ semiblock) = check := by
  apply BitVec.eq_of_getLsbD_eq
  intro index hindex
  simp only [high, BitVec.getLsbD_extractLsb', BitVec.getLsbD_append, hindex, decide_true,
    Bool.true_and]
  rw [if_neg (by omega), Nat.add_sub_cancel_left]

@[simp] theorem low_append (check semiblock : Semiblock) :
    low (check ++ semiblock) = semiblock := by
  apply BitVec.eq_of_getLsbD_eq
  intro index hindex
  simp only [low, BitVec.getLsbD_extractLsb', BitVec.getLsbD_append, hindex, decide_true,
    Bool.true_and, Nat.zero_add, ↓reduceIte]

@[simp] theorem high_append_low (block : Block) : high block ++ low block = block := by
  apply BitVec.eq_of_getLsbD_eq
  intro index hindex
  simp only [high, low, BitVec.getLsbD_append, BitVec.getLsbD_extractLsb']
  grind

variable (cipher : BlockCipher)

@[simp] theorem length_pass (check : Semiblock) (step : Nat) (semiblocks : List Semiblock) :
    (pass cipher check step semiblocks).2.length = semiblocks.length := by
  induction semiblocks generalizing check step with
  | nil => rfl
  | cons semiblock rest ih => simp [pass, ih]

/-- A pass is taken back, its last step first. -/
theorem unpass_pass (check : Semiblock) (step : Nat) (semiblocks : List Semiblock) :
    unpass cipher (pass cipher check step semiblocks).1 step
      (pass cipher check step semiblocks).2 = (check, semiblocks) := by
  induction semiblocks generalizing check step with
  | nil => rfl
  | cons semiblock rest ih =>
      simp only [pass, unpass, ih, BitVec.xor_assoc, BitVec.xor_self, BitVec.xor_zero,
        high_append_low, cipher.decrypt_encrypt, high_append, low_append]

@[simp] theorem length_passes (check : Semiblock) (key : List Semiblock) (count : Nat) :
    (passes cipher check key count).2.length = key.length := by
  induction count with
  | zero => rfl
  | succ count ih => simp [passes, ih]

/-- All passes are taken back, the last of them first. -/
theorem unpasses_passes (check : Semiblock) (key : List Semiblock) (count : Nat) :
    unpasses cipher (passes cipher check key count).1 (passes cipher check key count).2 count =
      (check, key) := by
  induction count with
  | zero => rfl
  | succ count ih => simp only [passes, unpasses, length_pass, length_passes, unpass_pass, ih]

@[simp] theorem length_unpass (check : Semiblock) (step : Nat) (semiblocks : List Semiblock) :
    (unpass cipher check step semiblocks).2.length = semiblocks.length := by
  induction semiblocks generalizing step with
  | nil => rfl
  | cons semiblock rest ih => simp [unpass, ih]

/-- A pass that was taken back is made again, its first step first. -/
theorem pass_unpass (check : Semiblock) (step : Nat) (semiblocks : List Semiblock) :
    pass cipher (unpass cipher check step semiblocks).1 step
      (unpass cipher check step semiblocks).2 = (check, semiblocks) := by
  induction semiblocks generalizing step with
  | nil => rfl
  | cons semiblock rest ih =>
      simp only [pass, unpass, high_append_low, cipher.encrypt_decrypt, high_append, low_append,
        BitVec.xor_assoc, BitVec.xor_self, BitVec.xor_zero, ih]

@[simp] theorem length_unpasses (check : Semiblock) (wrapped : List Semiblock) (count : Nat) :
    (unpasses cipher check wrapped count).2.length = wrapped.length := by
  induction count generalizing check wrapped with
  | zero => rfl
  | succ count ih => rw [unpasses, ih, length_unpass]

/-- All passes that were taken back are made again, the first of them first. -/
theorem passes_unpasses (check : Semiblock) (wrapped : List Semiblock) (count : Nat) :
    passes cipher (unpasses cipher check wrapped count).1
      (unpasses cipher check wrapped count).2 count = (check, wrapped) := by
  induction count generalizing check wrapped with
  | zero => rfl
  | succ count ih => simp only [passes, length_unpasses, unpasses, ih, length_unpass, pass_unpass]

@[simp] theorem length_wrap (key : List Semiblock) : (wrap cipher key).length = key.length + 1 := by
  simp [wrap]

/-! ## Whole messages -/

/-- A key is kept until its end, so where it is cut is lost. -/
theorem streams : (machine cipher).Streams :=
  Machine.streams_of_kept fun _ _ _ ↦ rfl

/-- The lengths of keys: at least two semiblocks, all of them whole. -/
def IsKeyLength (length : Nat) : Prop :=
  length % semiblockLength = 0 ∧ 2 * semiblockLength ≤ length

/-- Keys are wrapped exactly when their length is that of a key. -/
theorem message_encrypt_eq_ok_iff {key output tag final : Bytes} :
    (machine cipher).message .encrypt key tag = .ok (output, final) ↔
      IsKeyLength key.length ∧ output = Bytes.ofWords (wrap cipher key.semiblocks) ∧
        final = tag := by
  simp only [Machine.message, machine, List.nil_append]
  by_cases hlength : IsKeyLength key.length
  · rw [if_pos (by exact hlength)]
    simp [hlength, eq_comm]
  · rw [if_neg (by exact hlength)]
    simp [hlength]

/-- The lengths of wrapped keys: one semiblock more than a key has. -/
def IsWrappedLength (length : Nat) : Prop :=
  length % semiblockLength = 0 ∧ 3 * semiblockLength ≤ length

theorem isWrappedLength_add {length : Nat} :
    IsWrappedLength (length + semiblockLength) ↔ IsKeyLength length := by
  unfold IsWrappedLength IsKeyLength semiblockLength
  omega

theorem length_ofSemiblocks (semiblocks : List Semiblock) :
    (Bytes.ofWords semiblocks).length = semiblockLength * semiblocks.length :=
  @Bytes.length_ofWords 8 semiblocks

@[simp] theorem semiblocks_ofSemiblocks (semiblocks : List Semiblock) :
    Bytes.semiblocks (Bytes.ofWords semiblocks) = semiblocks :=
  @Bytes.words_ofWords 8 (by decide) semiblocks

theorem ofSemiblocks_semiblocks {bytes : Bytes} (hwhole : bytes.length % semiblockLength = 0) :
    Bytes.ofWords bytes.semiblocks = bytes :=
  Bytes.ofWords_words (Nat.dvd_of_mod_eq_zero hwhole)

/-- What a key is wrapped to is one semiblock longer. -/
theorem length_wrap_bytes {key : Bytes} (hkey : IsKeyLength key.length) :
    (Bytes.ofWords (wrap cipher key.semiblocks)).length = key.length + semiblockLength := by
  rw [length_ofSemiblocks, length_wrap, Nat.mul_succ, ← length_ofSemiblocks,
    ofSemiblocks_semiblocks hkey.1]

/-- A wrapped key is unwrapped to the key. -/
theorem message_decrypt_wrap {key : Bytes} (hkey : IsKeyLength key.length) (tag : Bytes) :
    (machine cipher).message .decrypt (Bytes.ofWords (wrap cipher key.semiblocks)) tag =
      .ok (key, tag) := by
  -- One semiblock is added to the two or more of the key, so the length is not refused.
  have hwrapped : IsWrappedLength (Bytes.ofWords (wrap cipher key.semiblocks)).length := by
    rw [length_wrap_bytes cipher hkey, isWrappedLength_add]
    exact hkey
  simp only [Machine.message, machine, List.nil_append]
  rw [if_pos (by exact hwrapped), semiblocks_ofSemiblocks]
  simp only [wrap, unpasses_passes, ↓reduceIte, ofSemiblocks_semiblocks hkey.1]

/-- What has another length than a key is not wrapped. -/
theorem message_encrypt_of_not {key : Bytes} (hkey : ¬ IsKeyLength key.length) (tag : Bytes) :
    (machine cipher).message .encrypt key tag = .error (.keyDataLength .encrypt key.length) := by
  simp only [Machine.message, machine, List.nil_append]
  rw [if_neg (by exact hkey)]

/-- What has another length than a wrapped key is not unwrapped. -/
theorem message_decrypt_of_not {wrapped : Bytes} (hwrapped : ¬ IsWrappedLength wrapped.length)
    (tag : Bytes) :
    (machine cipher).message .decrypt wrapped tag =
      .error (.keyDataLength .decrypt wrapped.length) := by
  simp only [Machine.message, machine, List.nil_append]
  rw [if_neg (by exact hwrapped)]

/-- A wrapped key of the right length has a first semiblock and at least two more. -/
theorem exists_semiblocks {wrapped : Bytes} (hwrapped : IsWrappedLength wrapped.length) :
    ∃ check rest, wrapped.semiblocks = check :: rest ∧ 2 ≤ rest.length := by
  have hcount : wrapped.semiblocks.length = wrapped.length / semiblockLength :=
    Bytes.length_words _ _
  cases hsemiblocks : wrapped.semiblocks with
  | nil =>
      rw [hsemiblocks, List.length_nil] at hcount
      unfold IsWrappedLength semiblockLength at hwrapped
      unfold semiblockLength at hcount
      omega
  | cons check rest =>
      refine ⟨check, rest, rfl, ?_⟩
      rw [hsemiblocks, List.length_cons] at hcount
      unfold IsWrappedLength semiblockLength at hwrapped
      unfold semiblockLength at hcount
      omega

/-- What has the length of a wrapped key is taken back through all passes, and the check value that
comes out decides. -/
theorem message_decrypt {wrapped : Bytes} (hwrapped : IsWrappedLength wrapped.length)
    (tag : Bytes) :
    ∃ check rest, wrapped.semiblocks = check :: rest ∧
      (machine cipher).message .decrypt wrapped tag =
        if (unpasses cipher check rest passCount).1 = initialValue then
          .ok (Bytes.ofWords (unpasses cipher check rest passCount).2, tag)
        else .error .keyIntegrityFailure := by
  obtain ⟨check, rest, hsemiblocks, -⟩ := exists_semiblocks hwrapped
  refine ⟨check, rest, hsemiblocks, ?_⟩
  simp only [Machine.message, machine, List.nil_append]
  rw [if_pos (by exact hwrapped), hsemiblocks]
  dsimp only
  by_cases hcheck : (unpasses cipher check rest passCount).1 = initialValue
  · rw [if_pos hcheck, if_pos hcheck]
  · rw [if_neg hcheck, if_neg hcheck]

/-- A key is unwrapped exactly from what it is wrapped to. -/
theorem message_decrypt_eq_ok_iff {wrapped key tag final : Bytes} :
    (machine cipher).message .decrypt wrapped tag = .ok (key, final) ↔
      IsKeyLength key.length ∧ wrapped = Bytes.ofWords (wrap cipher key.semiblocks) ∧
        final = tag := by
  constructor
  · intro hmessage
    by_cases hwrapped : IsWrappedLength wrapped.length
    · obtain ⟨check, rest, hsemiblocks, hanswer⟩ := message_decrypt cipher hwrapped tag
      rw [hmessage] at hanswer
      split at hanswer
      next hcheck =>
        -- The passes are made again, from the initial value, and give the wrapped key.
        have hagain := passes_unpasses cipher check rest passCount
        rw [hcheck] at hagain
        cases hanswer
        have hwrap : wrapped =
            Bytes.ofWords (wrap cipher (unpasses cipher check rest passCount).2) := by
          simp only [wrap, hagain, ← hsemiblocks, ofSemiblocks_semiblocks hwrapped.1]
        refine ⟨?_, by rwa [semiblocks_ofSemiblocks], rfl⟩
        rwa [hwrap, length_ofSemiblocks, length_wrap, Nat.mul_succ, isWrappedLength_add,
          ← length_ofSemiblocks] at hwrapped
      next => cases hanswer
    · rw [message_decrypt_of_not cipher hwrapped] at hmessage
      cases hmessage
  · intro hwrap
    obtain ⟨hkey, rfl, rfl⟩ := hwrap
    exact message_decrypt_wrap cipher hkey final

/-- What has the length of a wrapped key but is none fails the check. -/
theorem message_decrypt_of_forall_ne {wrapped : Bytes} (hwrapped : IsWrappedLength wrapped.length)
    (hne : ∀ key : Bytes, IsKeyLength key.length →
      wrapped ≠ Bytes.ofWords (wrap cipher key.semiblocks)) (tag : Bytes) :
    (machine cipher).message .decrypt wrapped tag = .error .keyIntegrityFailure := by
  obtain ⟨check, rest, -, hanswer⟩ := message_decrypt cipher hwrapped tag
  split at hanswer
  next =>
    obtain ⟨hkey, hwrap, -⟩ := (message_decrypt_eq_ok_iff cipher).mp hanswer
    exact absurd hwrap (hne _ hkey)
  next => exact hanswer

end SealedStore.KeyWrap

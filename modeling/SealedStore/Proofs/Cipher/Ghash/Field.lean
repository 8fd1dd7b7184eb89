import Mathlib.FieldTheory.Finite.Extension
import SealedStore.Cipher.Ghash

/-!
# Blocks are the elements of a field

The product of blocks is the product of polynomials over the field of two elements modulo
`x ^ 128 + x ^ 7 + x ^ 2 + x + 1` (`element_multiply`). That polynomial is irreducible by the test
of Rabin: it divides `x ^ (2 ^ 128) - x` and has no factor in common with `x ^ (2 ^ 64) - x`. Both
are found by squaring blocks. So the residues are a field, and a key that is not zero can be
cancelled: `eq_of_multiply_eq`.
-/

namespace SealedStore.Ghash

open Polynomial

/-! ## Blocks as polynomials -/

/-- The modulus of the multiplication of blocks. -/
noncomputable def modulus : (ZMod 2)[X] :=
  X ^ 128 + (X ^ 7 + X ^ 2 + X + 1)

theorem natDegree_modulus : modulus.natDegree = 128 := by
  unfold modulus
  compute_degree!

theorem monic_modulus : modulus.Monic := by
  unfold modulus
  apply monic_X_pow_add
  compute_degree!

/-- The polynomial of a block, whose most significant bit is the constant term. -/
noncomputable def polynomial (block : Block) : (ZMod 2)[X] :=
  ∑ index ∈ Finset.range 128, if block.getMsbD index then X ^ index else 0

theorem coeff_polynomial (block : Block) (index : ℕ) :
    (polynomial block).coeff index = if block.getMsbD index then 1 else 0 := by
  have hterm (other : ℕ) :
      (if block.getMsbD other then (X : (ZMod 2)[X]) ^ other else 0).coeff index =
        if other = index then if block.getMsbD index then 1 else 0 else 0 := by
    split
    next hbit =>
      rw [coeff_X_pow]
      by_cases hsame : index = other
      · rw [if_pos hsame, if_pos hsame.symm, hsame, if_pos hbit]
      · rw [if_neg hsame, if_neg (Ne.symm hsame)]
    next hbit =>
      rw [coeff_zero]
      by_cases hsame : other = index
      · rw [if_pos hsame, ← hsame, if_neg hbit]
      · rw [if_neg hsame]
  rw [polynomial, finsetSum_coeff, Finset.sum_congr rfl fun other _ ↦ hterm other,
    Finset.sum_ite_eq']
  by_cases hindex : index < 128
  · rw [if_pos (Finset.mem_range.mpr hindex)]
  · rw [if_neg (by simpa using hindex), BitVec.getMsbD_of_ge _ _ (Nat.le_of_not_lt hindex)]
    rfl

theorem degree_polynomial_lt (block : Block) : (polynomial block).degree < modulus.degree := by
  rw [degree_eq_natDegree monic_modulus.ne_zero, natDegree_modulus, degree_lt_iff_coeff_zero]
  intro index hindex
  rw [coeff_polynomial, BitVec.getMsbD_of_ge _ _ hindex]
  rfl

theorem polynomial_injective : Function.Injective polynomial := by
  intro left right heq
  refine BitVec.eq_of_getMsbD_eq fun index _ ↦ ?_
  have hcoeff := congrArg (coeff · index) heq
  simp only [coeff_polynomial] at hcoeff
  cases hleft : left.getMsbD index <;> cases hright : right.getMsbD index <;>
    simp [hleft, hright] at hcoeff ⊢

@[simp] theorem polynomial_xor (left right : Block) :
    polynomial (left ^^^ right) = polynomial left + polynomial right := by
  ext index
  rw [coeff_add, coeff_polynomial, coeff_polynomial, coeff_polynomial, BitVec.getMsbD_xor]
  cases left.getMsbD index <;> cases right.getMsbD index <;> decide

@[simp] theorem polynomial_zero : polynomial 0 = 0 := by
  ext index
  simp [coeff_polynomial]

theorem polynomial_reduction : polynomial reduction = X ^ 7 + X ^ 2 + X + 1 := by
  have hbits : ∀ index < 128, reduction.getMsbD index =
      decide (index = 7 ∨ index = 2 ∨ index = 1 ∨ index = 0) := by
    decide +kernel
  ext index
  rw [coeff_polynomial]
  simp only [coeff_add, coeff_X_pow, coeff_X, coeff_one]
  by_cases hindex : index < 128
  · rw [hbits index hindex]
    by_cases hterm : index < 8
    · interval_cases index <;> decide
    · rw [decide_eq_false (by omega), if_neg Bool.false_ne_true, if_neg (by omega),
        if_neg (by omega), if_neg (by omega), if_neg (by omega)]
      rfl
  · rw [BitVec.getMsbD_of_ge _ _ (Nat.le_of_not_lt hindex), if_neg Bool.false_ne_true,
      if_neg (by omega), if_neg (by omega), if_neg (by omega), if_neg (by omega)]
    rfl

/-- A shift loses the term of degree 128. -/
theorem X_mul_polynomial (block : Block) :
    X * polynomial block = polynomial (block >>> 1) + if block.getLsbD 0 then X ^ 128 else 0 := by
  have hlast : block.getLsbD 0 = block.getMsbD 127 := by
    rw [BitVec.getMsbD_eq_getLsbD]
    rfl
  ext index
  cases index with
  | zero => split <;> simp [coeff_polynomial, BitVec.getMsbD_ushiftRight, coeff_X_pow]
  | succ index =>
      rw [coeff_X_mul, coeff_add, coeff_polynomial, coeff_polynomial, BitVec.getMsbD_ushiftRight,
        hlast, apply_ite (coeff · (index + 1)), coeff_X_pow, coeff_zero]
      rcases Nat.lt_trichotomy index 127 with hlow | rfl | hhigh
      · simp [show index + 1 < 128 by omega, show index ≠ 127 by omega]
      · simp
      · simp [show ¬ index + 1 < 128 by omega, show index ≠ 127 by omega,
          BitVec.getMsbD_of_ge block index (by omega)]

/-- Multiplying by `x` takes the modulus away if it appears. -/
theorem polynomial_timesX (block : Block) :
    polynomial (timesX block) =
      X * polynomial block + if block.getLsbD 0 then modulus else 0 := by
  have htwice := CharTwo.add_self_eq_zero (X ^ 128 : (ZMod 2)[X])
  rw [X_mul_polynomial, timesX]
  split
  next =>
    rw [polynomial_xor, polynomial_reduction]
    unfold modulus
    linear_combination -htwice
  next => rw [add_zero, add_zero]

-- Unfolded, they are sums of up to 128 terms, and only their laws are used from here on.
attribute [irreducible] modulus polynomial

/-! ## Blocks as elements of the quotient -/

/-- The residue of a block. -/
noncomputable def element (block : Block) : AdjoinRoot modulus :=
  AdjoinRoot.mk modulus (polynomial block)

@[simp] theorem element_xor (left right : Block) :
    element (left ^^^ right) = element left + element right := by
  rw [element, polynomial_xor, map_add, element, element]

@[simp] theorem element_zero : element 0 = 0 := by
  rw [element, polynomial_zero, map_zero]

theorem element_injective : Function.Injective element := by
  intro left right heq
  rw [element, element, AdjoinRoot.mk_eq_mk, CharTwo.sub_eq_add, ← polynomial_xor] at heq
  have hzero := eq_zero_of_dvd_of_degree_lt heq (degree_polynomial_lt _)
  rw [polynomial_xor, ← CharTwo.sub_eq_add, sub_eq_zero] at hzero
  exact polynomial_injective hzero

theorem element_timesX (block : Block) :
    element (timesX block) = AdjoinRoot.root modulus * element block := by
  rw [element, polynomial_timesX, map_add, map_mul, AdjoinRoot.mk_X, element]
  split
  next => rw [AdjoinRoot.mk_self, add_zero]
  next => rw [map_zero, add_zero]

theorem element_eq_sum (block : Block) :
    element block = ∑ index ∈ Finset.range 128,
      if block.getLsbD (127 - index) then AdjoinRoot.root modulus ^ index else 0 := by
  rw [element, polynomial, map_sum]
  refine Finset.sum_congr rfl fun index hindex ↦ ?_
  rw [BitVec.getMsbD_eq_getLsbD, decide_eq_true (Finset.mem_range.mp hindex), Bool.true_and,
    apply_ite (AdjoinRoot.mk modulus), map_pow, AdjoinRoot.mk_X, map_zero]

theorem element_sumMultiples (block : Block) (count : ℕ) (multiple : Block) :
    element (sumMultiples block count multiple) =
      (∑ index ∈ Finset.range count,
        if block.getLsbD (count - 1 - index) then AdjoinRoot.root modulus ^ index else 0) *
          element multiple := by
  induction count generalizing multiple with
  | zero => rw [sumMultiples, element_zero, Finset.sum_range_zero, zero_mul]
  | succ count ih =>
      have hrest : ∑ index ∈ Finset.range count,
            (if block.getLsbD (count + 1 - 1 - (index + 1)) then
              AdjoinRoot.root modulus ^ (index + 1) else 0) =
          (∑ index ∈ Finset.range count,
            if block.getLsbD (count - 1 - index) then AdjoinRoot.root modulus ^ index else 0) *
              AdjoinRoot.root modulus := by
        rw [Finset.sum_mul]
        refine Finset.sum_congr rfl fun index _ ↦ ?_
        rw [show count + 1 - 1 - (index + 1) = count - 1 - index by omega, ite_mul, zero_mul,
          pow_succ]
      rw [sumMultiples, element_xor, ih, element_timesX, Finset.sum_range_succ', hrest,
        apply_ite element, element_zero, Nat.add_sub_cancel, Nat.sub_zero, pow_zero, add_mul,
        ite_mul, one_mul, zero_mul]
      ring

/-- The product of blocks is that of their residues. -/
@[simp] theorem element_multiply (left right : Block) :
    element (multiply left right) = element left * element right := by
  rw [multiply, element_sumMultiples, element_eq_sum left]

/-! ## Squares -/

/-- The square of a block. -/
def square (block : Block) : Block :=
  multiply block block

theorem element_iterate_square (block : Block) (count : ℕ) :
    element (square^[count] block) = element block ^ 2 ^ count := by
  induction count with
  | zero => rw [Function.iterate_zero_apply, pow_zero, pow_one]
  | succ count ih =>
      rw [Function.iterate_succ_apply', square, element_multiply, ih, ← sq, ← pow_mul, pow_succ]

/-- The block of `1`. -/
def unit : Block := 0x80000000000000000000000000000000

/-- The block of `x`. -/
def indeterminate : Block := 0x40000000000000000000000000000000

/-- The block of `x ^ (2 ^ 64)`. -/
def halfway : Block := 0x6f9945a9e519a7229d4c1ad657f8a686

/-- The inverse of the block of `x ^ (2 ^ 64) - x`. -/
def inverse : Block := 0x180da934bf53158251c13dbb149f5279

theorem square_indeterminate : square^[64] indeterminate = halfway := by
  decide +kernel

theorem square_halfway : square^[64] halfway = indeterminate := by
  decide +kernel

theorem multiply_inverse : multiply inverse (halfway ^^^ indeterminate) = unit := by
  decide +kernel

theorem timesX_unit : timesX unit = indeterminate := by
  decide

theorem polynomial_unit : polynomial unit = 1 := by
  have hbits : ∀ index < 128, unit.getMsbD index = decide (index = 0) := by
    decide +kernel
  ext index
  rw [coeff_polynomial, coeff_one]
  by_cases hindex : index < 128
  · rw [hbits index hindex]
    simp
  · rw [BitVec.getMsbD_of_ge _ _ (Nat.le_of_not_lt hindex), if_neg Bool.false_ne_true,
      if_neg (by omega)]

theorem element_unit : element unit = 1 := by
  rw [element, polynomial_unit, map_one]

theorem element_indeterminate : element indeterminate = AdjoinRoot.root modulus := by
  rw [← timesX_unit, element_timesX, element_unit, mul_one]

theorem element_halfway : element halfway = AdjoinRoot.root modulus ^ 2 ^ 64 := by
  rw [← square_indeterminate, element_iterate_square, element_indeterminate]

/-! ## The test of Rabin -/

theorem modulus_dvd_of_root_pow {exponent : ℕ}
    (hroot : AdjoinRoot.root modulus ^ exponent = AdjoinRoot.root modulus) :
    modulus ∣ X ^ exponent - X := by
  rw [← AdjoinRoot.mk_eq_mk, map_pow, AdjoinRoot.mk_X, hroot]

theorem isCoprime_of_root_pow {exponent : ℕ} {inverse : (ZMod 2)[X]}
    (hroot : AdjoinRoot.mk modulus inverse *
      (AdjoinRoot.root modulus ^ exponent + AdjoinRoot.root modulus) = 1) :
    IsCoprime modulus (X ^ exponent - X) := by
  have hmk : AdjoinRoot.mk modulus (inverse * (X ^ exponent + X)) = AdjoinRoot.mk modulus 1 := by
    rw [map_mul, map_add, map_pow, AdjoinRoot.mk_X, map_one, hroot]
  obtain ⟨quotient, hquotient⟩ := AdjoinRoot.mk_eq_mk.mp hmk
  rw [CharTwo.sub_eq_add]
  exact ⟨-quotient, inverse, by linear_combination hquotient⟩

/-- The test of Rabin, for a polynomial whose degree has all its proper divisors among those of one
number. -/
theorem irreducible_of_dvd_of_isCoprime {candidate : (ZMod 2)[X]} {half : ℕ}
    (hpos : 0 < candidate.natDegree)
    (hhalf : ∀ degree, degree ∣ candidate.natDegree →
      degree = candidate.natDegree ∨ degree ∣ half)
    (hdvd : candidate ∣ X ^ 2 ^ candidate.natDegree - X)
    (hcoprime : IsCoprime candidate (X ^ 2 ^ half - X)) : Irreducible candidate := by
  have hne : candidate ≠ 0 := ne_zero_of_natDegree_gt hpos
  have hcard : Nat.card (ZMod 2) = 2 := Nat.card_zmod 2
  obtain ⟨factor, hfactor, hfactorDvd⟩ := WfDvdMonoid.exists_irreducible_factor
    (fun hunit ↦ hpos.ne' (natDegree_eq_zero_of_isUnit hunit)) hne
  have hdegree : factor.natDegree ∣ candidate.natDegree := by
    refine hfactor.natDegree_dvd_of_dvd_X_pow_card_pow_sub_X ?_
    rw [hcard]
    exact hfactorDvd.trans hdvd
  -- A factor of lower degree would be common to both polynomials of the test.
  rcases hhalf _ hdegree with hfull | hsmall
  · exact (associated_of_dvd_of_natDegree_le hfactorDvd hne hfull.ge).irreducible hfactor
  · have hdvdHalf := hfactor.natDegree_dvd_iff_dvd_X_pow_card_pow_sub_X.mp hsmall
    rw [hcard] at hdvdHalf
    exact absurd (hcoprime.isUnit_of_dvd' hfactorDvd hdvdHalf) hfactor.not_isUnit

theorem irreducible_modulus : Irreducible modulus := by
  have hhalf : ∀ degree, degree ∣ 128 → degree = 128 ∨ degree ∣ 64 := by
    have hsmall : ∀ degree < 129, degree ∣ 128 → degree = 128 ∨ degree ∣ 64 := by decide
    intro degree hdegree
    exact hsmall degree (Nat.lt_succ_of_le (Nat.le_of_dvd (by decide) hdegree)) hdegree
  have hdvd : AdjoinRoot.root modulus ^ 2 ^ 128 = AdjoinRoot.root modulus := by
    rw [show 128 = 64 + 64 from rfl, pow_add, pow_mul, ← element_halfway,
      ← element_iterate_square, square_halfway, element_indeterminate]
  have hinverse : element inverse *
      (AdjoinRoot.root modulus ^ 2 ^ 64 + AdjoinRoot.root modulus) = 1 := by
    rw [← element_halfway, ← element_indeterminate, ← element_xor, ← element_multiply,
      multiply_inverse, element_unit]
  refine irreducible_of_dvd_of_isCoprime ?_ ?_ ?_ (isCoprime_of_root_pow hinverse)
  · rw [natDegree_modulus]
    decide
  · rwa [natDegree_modulus]
  · rw [natDegree_modulus]
    exact modulus_dvd_of_root_pow hdvd

instance : Fact (Irreducible modulus) := ⟨irreducible_modulus⟩

/-- A key that is not zero can be cancelled. -/
theorem eq_of_multiply_eq {left right key : Block} (hkey : key ≠ 0)
    (heq : multiply left key = multiply right key) : left = right := by
  have helement := congrArg element heq
  rw [element_multiply, element_multiply] at helement
  have hne : element key ≠ 0 := by
    intro hzero
    exact hkey (element_injective (hzero.trans element_zero.symm))
  exact element_injective (mul_right_cancel₀ hne helement)

end SealedStore.Ghash

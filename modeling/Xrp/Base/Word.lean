import Mathlib

/-!
# Fixed-width masks

Bridges between the mask idioms of C code on machine words and natural-number
arithmetic: masking with a negated power of two, rounding up to a power of two,
and single flags of a word; and sign extension where it changes nothing.
-/

namespace BitVec

variable {w k : Nat}

theorem eq_twoPow_of_toNat {a : BitVec w} (hk : k < w) (ha : a.toNat = 2 ^ k) :
    a = BitVec.twoPow w k := by
  apply BitVec.eq_of_toNat_eq
  rw [ha, BitVec.toNat_twoPow_of_lt hk]

/-- The negation of a power of two is the mask of all bits from that power on. -/
theorem neg_eq_allOnes_shiftLeft {a : BitVec w} (hk : k < w) (ha : a.toNat = 2 ^ k) :
    -a = BitVec.allOnes w <<< k := by
  rw [eq_twoPow_of_toNat hk ha, BitVec.shiftLeft_eq_mul_twoPow, ← BitVec.neg_one_eq_allOnes]
  simp [BitVec.twoPow_eq]

theorem and_allOnes_shiftLeft (x : BitVec w) (k : Nat) :
    x &&& BitVec.allOnes w <<< k = (x >>> k) <<< k := by
  apply BitVec.eq_of_getLsbD_eq
  intro i inside
  simp only [BitVec.getLsbD_and, BitVec.getLsbD_shiftLeft, BitVec.getLsbD_allOnes,
    BitVec.getLsbD_ushiftRight]
  by_cases low : i < k
  · simp [low]
  · have index : k + (i - k) = i := by omega
    have bound : i - k < w := by omega
    simp [low, inside, index, bound]

/-- Masking with a negated power of two rounds down to that power. -/
theorem toNat_and_neg {x a : BitVec w} (hk : k < w) (ha : a.toNat = 2 ^ k) :
    (x &&& -a).toNat = x.toNat / 2 ^ k * 2 ^ k := by
  rw [neg_eq_allOnes_shiftLeft hk ha, and_allOnes_shiftLeft, BitVec.toNat_shiftLeft,
    BitVec.toNat_ushiftRight, Nat.shiftLeft_eq, Nat.shiftRight_eq_div_pow, Nat.mod_eq_of_lt]
  exact lt_of_le_of_lt (Nat.div_mul_le_self _ _) x.isLt

/-- A flag that was set is set. -/
theorem or_and_flag (flags flag : BitVec w) : (flags ||| flag) &&& flag = flag := by
  ext i
  simp only [BitVec.getElem_and, BitVec.getElem_or]
  cases flag[i] <;> simp

/-- Setting a flag leaves the others as they are. -/
theorem or_and_other {flags flag other : BitVec w} (apart : flag &&& other = 0) :
    (flags ||| flag) &&& other = flags &&& other := by
  rw [BitVec.and_or_distrib_right, apart]
  simp

/-- Sign extension of a word without its sign bit. -/
theorem toNat_signExtend_of_lt {v : Nat} {x : BitVec w} (wide : w ≤ v)
    (small : 2 * x.toNat < 2 ^ w) : (x.signExtend v).toNat = x.toNat := by
  have positive : x.msb = false := by
    rw [BitVec.msb_eq_false_iff_two_mul_lt]
    exact small
  rw [BitVec.signExtend_eq_setWidth_of_msb_false positive, BitVec.toNat_setWidth_of_le wide]

/-- The low bits of a word are zero if and only if it is a multiple of their power. -/
theorem two_pow_dvd_toNat_iff {x : BitVec w} :
    2 ^ k ∣ x.toNat ↔ ∀ i < k, x.getLsbD i = false := by
  rw [Nat.dvd_iff_mod_eq_zero]
  constructor
  · intro zero i low
    have bit := Nat.testBit_mod_two_pow x.toNat k i
    rw [zero, Nat.zero_testBit, decide_eq_true low, Bool.true_and] at bit
    exact bit.symm
  · intro clear
    apply Nat.eq_of_testBit_eq
    intro i
    rw [Nat.testBit_mod_two_pow, Nat.zero_testBit]
    by_cases low : i < k
    · rw [BitVec.testBit_toNat, clear i low, Bool.and_false]
    · rw [decide_eq_false low, Bool.false_and]

/-- Trailing zeros are powers of two that divide the word. -/
theorem le_toNat_ctz_iff {x : BitVec w} (bound : k ≤ w) :
    k ≤ x.ctz.toNat ↔ 2 ^ k ∣ x.toNat := by
  rw [two_pow_dvd_toNat_iff]
  constructor
  · intro zeros i low
    exact getLsbD_false_of_lt_ctz (lt_of_lt_of_le low zeros)
  · intro clear
    by_contra short
    by_cases zero : x = 0#w
    · have whole : (w : BitVec w) ≤ x.ctz :=
        BitVec.not_lt.mp fun less => ctz_lt_iff_ne_zero.mp less zero
      rw [BitVec.le_def, natCast_eq_ofNat, BitVec.toNat_ofNat, Nat.mod_two_pow_self] at whole
      omega
    · have bit := getLsbD_true_ctz_of_ne_zero zero
      rw [clear _ (by omega)] at bit
      cases bit

end BitVec

/-! ## Rounding up -/

/-- The least multiple of `l` that is at least `b`. -/
def Nat.roundUp (b l : Nat) : Nat := (b + l - 1) / l * l

namespace Nat

theorem le_roundUp {b l : Nat} (positive : 0 < l) : b ≤ b.roundUp l := by
  have division := Nat.div_add_mod (b + l - 1) l
  have rest := Nat.mod_lt (b + l - 1) positive
  rw [Nat.mul_comm] at division
  unfold Nat.roundUp
  omega

theorem roundUp_pos {b l : Nat} (positive : 0 < l) (some : 0 < b) : 0 < b.roundUp l :=
  lt_of_lt_of_le some (le_roundUp positive)

theorem roundUp_lt {b l : Nat} (positive : 0 < l) : b.roundUp l < b + l := by
  have division := Nat.div_mul_le_self (b + l - 1) l
  unfold Nat.roundUp
  omega

theorem dvd_roundUp (b l : Nat) : l ∣ b.roundUp l := Nat.dvd_mul_left l _

theorem roundUp_of_dvd {b l : Nat} (positive : 0 < l) (multiple : l ∣ b) : b.roundUp l = b := by
  obtain ⟨q, rfl⟩ := multiple
  have round : (l * q + l - 1) / l = q := by
    rw [Nat.add_sub_assoc positive, Nat.mul_add_div positive, Nat.div_eq_of_lt (by omega),
      Nat.add_zero]
  rw [Nat.roundUp, round, Nat.mul_comm]

/-- A multiple of `l` above `b` is at or above the rounded value. -/
theorem roundUp_le {b l m : Nat} (positive : 0 < l) (multiple : l ∣ m) (above : b ≤ m) :
    b.roundUp l ≤ m := by
  obtain ⟨q, rfl⟩ := multiple
  unfold Nat.roundUp
  rw [Nat.mul_comm l q] at above ⊢
  refine Nat.mul_le_mul_right l ?_
  have bound : (b + l - 1) / l < q + 1 := by
    rw [Nat.div_lt_iff_lt_mul positive, Nat.add_mul]
    omega
  omega

end Nat

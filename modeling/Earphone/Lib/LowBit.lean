import Mathlib.Data.Nat.Factorization.Basic

/-!
This module contains the lowest bit of a word.
-/

namespace LowBit

theorem xor_pred (k m : Nat) :
    (2 ^ k * (2 * m + 1)) ^^^ (2 ^ k * (2 * m + 1) - 1) = 2 ^ (k + 1) - 1 := by
  have hpow : 0 < 2 ^ k := Nat.two_pow_pos k
  have hpred : 2 ^ k * (2 * m + 1) - 1 = 2 ^ k * (2 * m) + (2 ^ k - 1) := by
    rw [Nat.mul_add, Nat.mul_one]
    omega
  apply Nat.eq_of_testBit_eq
  intro i
  rw [Nat.testBit_xor, hpred, Nat.testBit_two_pow_mul, Nat.testBit_two_pow_mul_add _ (by omega),
    Nat.testBit_two_pow_sub_one, Nat.testBit_two_pow_sub_one]
  rcases Nat.lt_trichotomy i k with hlt | rfl | hgt
  . simp [hlt, Nat.not_le.mpr hlt, Nat.lt_succ_of_lt hlt]
  . simp
  . obtain ⟨j, rfl⟩ : ∃ j, i = k + 1 + j := ⟨i - (k + 1), by omega⟩
    have hsub : k + 1 + j - k = j + 1 := by omega
    have hodd : (2 * m + 1) / 2 = m := by omega
    have hle : k ≤ k + 1 + j := Nat.le_of_lt hgt
    have hnlt : ¬ k + 1 + j < k + 1 := by omega
    simp [hsub, Nat.testBit_succ, hodd, hle, hnlt]

theorem exists_lowest {w : Nat} {v : BitVec w} (hv : v ≠ 0#w) :
    ∃ k, k < w ∧ v.getLsbD k = true ∧ v ^^^ (v - 1#w) = BitVec.ofNat w (2 ^ (k + 1) - 1) := by
  have hpos : v.toNat ≠ 0 := fun h => hv (BitVec.eq_of_toNat_eq (by simpa using h))
  obtain ⟨k, odd, ⟨m, rfl⟩, heq⟩ := Nat.exists_eq_two_pow_mul_odd hpos
  have hlt : 2 ^ k < 2 ^ w := by
    have hle : 2 ^ k * 1 ≤ 2 ^ k * (2 * m + 1) := Nat.mul_le_mul_left _ (by omega)
    have hv := v.isLt
    omega
  have hk : k < w := (Nat.pow_lt_pow_iff_right (by decide)).mp hlt
  have hone : (1#w).toNat = 1 := by
    rw [BitVec.toNat_ofNat, Nat.mod_eq_of_lt (Nat.one_lt_two_pow (by omega))]
  refine ⟨k, hk, ?_, ?_⟩
  . rw [BitVec.getLsbD, heq, Nat.testBit_two_pow_mul]
    simp
  . apply BitVec.eq_of_toNat_eq
    have hle : 1#w ≤ v := by
      rw [BitVec.le_def, hone]
      omega
    have hmask : 2 ^ (k + 1) ≤ 2 ^ w := Nat.pow_le_pow_right (by decide) hk
    have hmask' : 0 < 2 ^ (k + 1) := Nat.two_pow_pos _
    rw [BitVec.toNat_xor, BitVec.toNat_sub_of_le hle, hone, heq, xor_pred, BitVec.toNat_ofNat,
      Nat.mod_eq_of_lt (by omega)]

end LowBit

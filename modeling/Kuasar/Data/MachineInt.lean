import Mathlib.Algebra.Ring.Int.Defs
import Mathlib.Algebra.Ring.Nat
import Mathlib.Tactic.Common

/-!
# Data.MachineInt — signed integers of a fixed width

A machine integer of `w` bits is an integer that fits. `checked` refuses a result that does
not fit, `wrapping` takes its low `w` bits as two's complement; both are the result itself
where it fits. `toUnsigned` reads the same bits without a sign, and wrapping does not see the
difference (`wrapping_toUnsigned`).
-/

namespace MachineInt

variable {w : ℕ} {n : ℤ}

/-- The number has a representation in `w` bits. -/
def Fits (w : ℕ) (n : ℤ) : Prop := -2 ^ (w - 1) ≤ n ∧ n < 2 ^ (w - 1)

instance : Decidable (Fits w n) := by
  unfold Fits
  infer_instance

/-- The result of an operation that reports an overflow. -/
def checked (w : ℕ) (n : ℤ) : Option ℤ := if Fits w n then some n else none

/-- The result of an operation that wraps around. -/
def wrapping (w : ℕ) (n : ℤ) : ℤ := n.bmod (2 ^ w)

/-- The bits of a number, without a sign. -/
def toUnsigned (w : ℕ) (n : ℤ) : ℕ := (n % (2 ^ w : ℕ)).toNat

theorem checked_of_fits (h : Fits w n) : checked w n = some n := if_pos h

theorem checked_of_not_fits (h : ¬ Fits w n) : checked w n = none := if_neg h

theorem two_pow_half (hw : 0 < w) : 2 ^ w = 2 * 2 ^ (w - 1) := by
  obtain ⟨v, rfl⟩ : ∃ v, w = v + 1 := ⟨w - 1, by omega⟩
  rw [Nat.add_sub_cancel, Nat.pow_succ, Nat.mul_comm]

theorem wrapping_of_fits (hw : 0 < w) (h : Fits w n) : wrapping w n = n := by
  obtain ⟨hlo, hhi⟩ := h
  have hhalf : ((2 ^ w : ℕ) : ℤ) = 2 * 2 ^ (w - 1) := by
    rw [two_pow_half hw]
    push_cast
    rfl
  apply Int.bmod_eq_of_le
  · rw [hhalf]
    omega
  · rw [hhalf]
    omega

theorem toUnsigned_cast : ((toUnsigned w n : ℕ) : ℤ) = n % (2 ^ w : ℕ) := by
  unfold toUnsigned
  rw [Int.toNat_of_nonneg]
  apply Int.emod_nonneg
  have hpos : 0 < 2 ^ w := Nat.two_pow_pos w
  omega

theorem toUnsigned_lt : toUnsigned w n < 2 ^ w := by
  have hpos : 0 < 2 ^ w := Nat.two_pow_pos w
  have hlt : ((toUnsigned w n : ℕ) : ℤ) < (2 ^ w : ℕ) := by
    rw [toUnsigned_cast]
    exact Int.emod_lt_of_pos n (by omega)
  omega

/-- An addition that wraps does not see whether a summand has a sign. -/
theorem wrapping_toUnsigned : wrapping w (toUnsigned w n) = wrapping w n := by
  rw [toUnsigned_cast]
  exact Int.emod_bmod n (2 ^ w)

end MachineInt

import Mathlib.Data.List.Basic
import Mathlib.Tactic.IntervalCases

/-!
# Data.Hex — numbers written with hexadecimal digits

A number is written with lower-case hexadecimal digits, filled up with zeros to a width. The
text has no other characters and determines the number (`padded_inj`).
-/

namespace Hex

def digits (n : ℕ) : List Char := Nat.toDigits 16 n

/-- The digits of a number, with zeros in front up to a width. -/
def padded (width n : ℕ) : List Char :=
  List.replicate (width - (digits n).length) '0' ++ digits n

def charValue (c : Char) : ℕ :=
  if c.toNat < 'a'.toNat then c.toNat - '0'.toNat else c.toNat - 'a'.toNat + 10

def value (cs : List Char) : ℕ := cs.foldl (fun v c => 16 * v + charValue c) 0

theorem charValue_digitChar {k : ℕ} (hk : k < 16) : charValue k.digitChar = k := by
  interval_cases k <;> decide

theorem value_concat (cs : List Char) (c : Char) :
    value (cs ++ [c]) = 16 * value cs + charValue c := by
  rw [value, List.foldl_append]
  rfl

theorem value_digits (n : ℕ) : value (digits n) = n := by
  induction n using Nat.strongRecOn with
  | ind n ih =>
    rw [digits, Nat.toDigits_eq_if (by omega)]
    split
    · rename_i hlt
      show 16 * 0 + charValue n.digitChar = n
      rw [charValue_digitChar hlt, Nat.mul_zero, Nat.zero_add]
    · have hrest : value (Nat.toDigits 16 (n / 16)) = n / 16 := ih (n / 16) (by omega)
      rw [value_concat, hrest, charValue_digitChar (Nat.mod_lt n (by omega))]
      omega

theorem value_padded (width n : ℕ) : value (padded width n) = n := by
  rw [padded]
  induction width - (digits n).length with
  | zero => exact value_digits n
  | succ k ih =>
    rw [List.replicate_succ, List.cons_append]
    exact ih

theorem padded_inj {width n m : ℕ} : padded width n = padded width m ↔ n = m := by
  constructor
  · intro h
    rw [← value_padded width n, h, value_padded]
  · rintro rfl
    rfl

theorem digits_inj {n m : ℕ} : digits n = digits m ↔ n = m := by
  constructor
  · intro h
    rw [← value_digits n, h, value_digits]
  · rintro rfl
    rfl

theorem notMem_digits {c : Char} (hc : ∀ k < 16, c ≠ Nat.digitChar k) (n : ℕ) : c ∉ digits n := by
  induction n using Nat.strongRecOn with
  | ind n ih =>
    rw [digits, Nat.toDigits_eq_if (by omega)]
    split
    · rename_i hlt
      rw [List.mem_singleton]
      exact hc n hlt
    · rw [List.mem_append, List.mem_singleton, not_or]
      exact ⟨ih (n / 16) (by omega), hc (n % 16) (Nat.mod_lt n (by omega))⟩

theorem notMem_padded {c : Char} (hc : ∀ k < 16, c ≠ Nat.digitChar k) (width n : ℕ) :
    c ∉ padded width n := by
  rw [padded, List.mem_append, not_or]
  refine ⟨?_, notMem_digits hc n⟩
  intro hmem
  exact hc 0 (by omega) (List.eq_of_mem_replicate hmem)

end Hex

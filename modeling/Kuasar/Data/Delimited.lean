import Mathlib.Data.List.Basic

/-!
# Data.Delimited — texts that are joined by a separator

A text that is made of parts with a separator between them can be cut again where the
separator stands, if the parts do not contain it. The cut at the first separator is unique
if the part before it is free of it, the cut at the last one if the part behind it is.

The decimal digits of a number are free of every separator that is not a digit, and two
numbers with the same digits are equal.
-/

universe u

namespace Delimited

variable {α : Type u} {sep : α} {xs xs' ys ys' : List α}

theorem cut_first (hxs : sep ∉ xs) (hxs' : sep ∉ xs') (h : xs ++ sep :: ys = xs' ++ sep :: ys') :
    xs = xs' ∧ ys = ys' := by
  classical
  have hlen : xs.length = xs'.length := by
    have hidx := congrArg (List.idxOf sep) h
    rwa [List.idxOf_append_of_notMem hxs, List.idxOf_append_of_notMem hxs', List.idxOf_cons_self,
      List.idxOf_cons_self] at hidx
  obtain ⟨rfl, htail⟩ := List.append_inj h hlen
  exact ⟨rfl, (List.cons.inj htail).2⟩

theorem cut_last (hys : sep ∉ ys) (hys' : sep ∉ ys') (h : xs ++ sep :: ys = xs' ++ sep :: ys') :
    xs = xs' ∧ ys = ys' := by
  have hrev : ys.reverse ++ sep :: xs.reverse = ys'.reverse ++ sep :: xs'.reverse := by
    simpa using congrArg List.reverse h
  obtain ⟨hy, hx⟩ := cut_first (by simpa using hys) (by simpa using hys') hrev
  exact ⟨List.reverse_injective hx, List.reverse_injective hy⟩

/-! ## Numbers -/

theorem notMem_digits {c : Char} (hc : c.isDigit = false) (n : ℕ) : c ∉ (toString n).toList := by
  rw [Nat.toString_eq_ofList_toDigits, String.toList_ofList]
  intro h
  have hdigit := Nat.isDigit_of_mem_toDigits (by omega) (by omega) h
  rw [hc] at hdigit
  cases hdigit

theorem digits_inj {n m : ℕ} (h : (toString n).toList = (toString m).toList) : n = m := by
  rw [Nat.toString_eq_ofList_toDigits, Nat.toString_eq_ofList_toDigits, String.toList_ofList,
    String.toList_ofList] at h
  simpa using congrArg (fun ds => Nat.ofDigitChars 10 ds 0) h

theorem toString_inj {n m : ℕ} : toString n = toString m ↔ n = m := by
  constructor
  · intro h
    exact digits_inj (congrArg String.toList h)
  · rintro rfl
    rfl

end Delimited

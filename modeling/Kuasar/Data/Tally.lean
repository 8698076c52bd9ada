import Mathlib.Tactic.Common

/-!
# Data.Tally — reference counts that disappear at zero

A `Tally α` is a map from `α` to counts in which a name that is not counted has
no entry; no entry stands at zero. `incr` starts a missing count at one; `decr`
takes one off and drops the entry when it would reach zero. A `decr` of a name
without an entry changes nothing.
-/

universe u

/-- Counts by name: an entry is a positive count. -/
@[ext] structure Tally (α : Type u) where
  entry : α → Option Nat
  pos : ∀ a, entry a ≠ some 0

namespace Tally

variable {α : Type u}

/-- No name is counted. -/
def empty : Tally α := ⟨fun _ => none, fun _ => by simp⟩

/-- The count of `a`, zero when it has no entry. -/
def count (c : Tally α) (a : α) : Nat := (c.entry a).getD 0

theorem count_eq_zero {c : Tally α} {a : α} : c.count a = 0 ↔ c.entry a = none := by
  have hp := c.pos a
  rcases hc : c.entry a with _ | _ | n
  · simp [count, hc]
  · exact absurd hc hp
  · simp [count, hc]

variable [DecidableEq α]

/-- Add one to the count of `a`, starting from zero. -/
def incr (c : Tally α) (a : α) : Tally α where
  entry b := if b = a then some (c.count a + 1) else c.entry b
  pos b := by
    split
    · simp
    · exact c.pos b

def less : Option Nat → Option Nat
  | some (n + 2) => some (n + 1)
  | _ => none

/-- Take one off the count of `a`; the entry goes away at zero. -/
def decr (c : Tally α) (a : α) : Tally α where
  entry b := if b = a then less (c.entry a) else c.entry b
  pos b := by
    split
    · rcases c.entry a with _ | _ | _ | n <;> simp [less]
    · exact c.pos b

/-- `decr c a` drops the entry of `a`. -/
def lastOut (c : Tally α) (a : α) : Bool := c.entry a == some 1

variable {c : Tally α} {a b : α}

theorem incr_self : (c.incr a).entry a = some (c.count a + 1) := by
  simp [incr]

theorem incr_ne (h : b ≠ a) : (c.incr a).entry b = c.entry b := by
  simp [incr, h]

theorem decr_ne (h : b ≠ a) : (c.decr a).entry b = c.entry b := by
  simp [decr, h]

/-- Counting up makes no entry disappear. -/
theorem incr_eq_none : (c.incr a).entry b = none ↔ b ≠ a ∧ c.entry b = none := by
  by_cases h : b = a
  · subst h
    simp [incr]
  · simp [incr, h]

/-- Counting down makes no entry appear. -/
theorem decr_of_none (h : c.entry b = none) : (c.decr a).entry b = none := by
  by_cases hba : b = a
  · subst hba
    simp [decr, less, h]
  · rw [decr_ne hba, h]

theorem count_incr : (c.incr a).count b = c.count b + if b = a then 1 else 0 := by
  by_cases h : b = a
  · subst h
    simp [count, incr]
  · simp [count, incr, h]

theorem getD_less (o : Option Nat) : (less o).getD 0 = o.getD 0 - 1 := by
  rcases o with _ | _ | _ | n <;> simp [less]

theorem count_decr : (c.decr a).count b = c.count b - if b = a then 1 else 0 := by
  by_cases h : b = a
  · subst h
    simp [count, decr, getD_less]
  · simp [count, decr_ne h, h]

/-- Counting down takes one off at most. -/
theorem count_le_count_decr : c.count b ≤ (c.decr a).count b + if b = a then 1 else 0 := by
  rw [count_decr]
  omega

/-- Taking off what was just added gives the counts back. -/
theorem decr_incr : (c.incr a).decr a = c := by
  ext1
  funext b
  by_cases hba : b = a
  · subst hba
    have hp := c.pos b
    rcases hc : c.entry b with _ | _ | n
    · simp [decr, incr, less, count, hc]
    · exact absurd hc hp
    · simp [decr, incr, less, count, hc]
  · rw [decr_ne hba, incr_ne hba]

/-- The entry of `a` goes away on the matching `decr` exactly when `a` had no
entry before the `incr`. -/
theorem lastOut_incr : (c.incr a).lastOut a = true ↔ c.entry a = none := by
  rw [← count_eq_zero]
  simp [lastOut, incr]

end Tally

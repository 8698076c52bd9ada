import Mathlib.Algebra.GroupWithZero.Nat
import Mathlib.Data.List.DropRight

/-!
# Data.Windows — the end of a stream, and the last occurrence of a pattern

A reader that looks for a trailer keeps the last `m` elements of a stream and passes on what came
before. `List.rdrop` and `List.rtake` are the two parts; `rtake_rtake_append` and
`rdrop_append_rdrop` say that it makes no difference whether the stream arrives at once or in
parts.

`lastOccurrence` is where a pattern occurs last. `lastOccurrence_append` finds the pattern in front
of a suffix that does not have its last element.
-/

universe u

namespace Windows

variable {α : Type u} {m : ℕ} {xs ys : List α}

/-! ## The end of a stream -/

theorem rdrop_append_rtake (m : ℕ) (xs : List α) : xs.rdrop m ++ xs.rtake m = xs :=
  List.take_append_drop _ xs

theorem rtake_of_length_le (h : xs.length ≤ m) : xs.rtake m = xs := by
  rw [List.rtake, Nat.sub_eq_zero_of_le h, List.drop_zero]

theorem rdrop_of_length_le (h : xs.length ≤ m) : xs.rdrop m = [] := by
  rw [List.rdrop, Nat.sub_eq_zero_of_le h, List.take_zero]

/-- The end of a stream is the end of its end and what follows. -/
theorem rtake_rtake_append (m : ℕ) (xs ys : List α) :
    (xs.rtake m ++ ys).rtake m = (xs ++ ys).rtake m := by
  have hcut : xs.length - m + ((xs.rtake m ++ ys).length - m) = (xs ++ ys).length - m := by
    simp only [List.rtake, List.length_append, List.length_drop]
    omega
  have hsplit : xs ++ ys = xs.rdrop m ++ (xs.rtake m ++ ys) := by
    rw [← List.append_assoc, rdrop_append_rtake]
  have hlen : (xs.rdrop m).length = xs.length - m := by
    rw [List.rdrop, List.length_take]
    omega
  calc (xs.rtake m ++ ys).rtake m
      = (xs.rdrop m ++ (xs.rtake m ++ ys)).drop
          ((xs.rdrop m).length + ((xs.rtake m ++ ys).length - m)) := by
        rw [← List.drop_drop, List.drop_left, List.rtake]
    _ = (xs ++ ys).rtake m := by
        rw [hlen, hcut, ← hsplit, List.rtake]

/-- What comes before the end is passed on once, part by part. -/
theorem rdrop_append_rdrop (m : ℕ) (xs ys : List α) :
    xs.rdrop m ++ (xs.rtake m ++ ys).rdrop m = (xs ++ ys).rdrop m := by
  -- both are what is left of the stream without its end
  refine (List.append_left_inj ((xs ++ ys).rtake m)).mp ?_
  rw [rdrop_append_rtake, ← rtake_rtake_append, List.append_assoc, rdrop_append_rtake,
    ← List.append_assoc, rdrop_append_rtake]

/-- A trailer that fits in the window is in it as a whole. -/
theorem rtake_append (h : ys.length ≤ m) :
    (xs ++ ys).rtake m = xs.rtake (m - ys.length) ++ ys := by
  have hcut : (xs ++ ys).length - m = xs.length - (m - ys.length) := by
    rw [List.length_append]
    omega
  rw [List.rtake, hcut, List.drop_append_of_le_length (Nat.sub_le _ _), List.rtake]

theorem rdrop_append (h : ys.length ≤ m) : (xs ++ ys).rdrop m = xs.rdrop (m - ys.length) := by
  have hcut : (xs ++ ys).length - m = xs.length - (m - ys.length) := by
    rw [List.length_append]
    omega
  rw [List.rdrop, hcut, List.take_append_of_le_length (Nat.sub_le _ _), List.rdrop]

/-! ## The last occurrence of a pattern -/

variable [DecidableEq α]

/-- `needle` stands at position `i`. -/
def occursAt (haystack needle : List α) (i : ℕ) : Bool :=
  (haystack.drop i).take needle.length == needle

/-- The last position at which `needle` stands, over all windows of its length. -/
def lastOccurrence (haystack needle : List α) : Option ℕ :=
  (List.range (haystack.length + 1 - needle.length)).reverse.find? (occursAt haystack needle)

/-- The position that `lastOccurrence` returns: the pattern is there, and nowhere after it. -/
theorem lastOccurrence_eq_some {haystack needle : List α} {i : ℕ}
    (hi : i + needle.length ≤ haystack.length) (hat : occursAt haystack needle i = true)
    (hlast : ∀ j, i < j → j + needle.length ≤ haystack.length →
      occursAt haystack needle j = false) :
    lastOccurrence haystack needle = some i := by
  obtain ⟨k, hk⟩ : ∃ k, haystack.length + 1 - needle.length = i + 1 + k :=
    ⟨haystack.length - needle.length - i, by omega⟩
  rw [lastOccurrence, hk, List.find?_eq_some_iff_append]
  -- the windows after `i` are searched first
  refine ⟨hat, ((List.range k).map (i + 1 + ·)).reverse, (List.range i).reverse, ?_, ?_⟩
  · rw [List.range_add, List.range_succ]
    simp
  · intro j hj
    obtain ⟨d, hd, rfl⟩ := List.mem_map.mp (List.mem_reverse.mp hj)
    rw [List.mem_range] at hd
    rw [hlast (i + 1 + d) (by omega) (by omega)]
    rfl

/-- A pattern that ends in `c`, followed by something without `c`, occurs last where it stands. -/
theorem lastOccurrence_append {c : α} {init suffix : List α} (hc : c ∉ suffix) :
    lastOccurrence (xs ++ (init ++ [c]) ++ suffix) (init ++ [c]) = some xs.length := by
  apply lastOccurrence_eq_some
  · simp
  · rw [occursAt, List.append_assoc xs, List.drop_left, List.take_left]
    exact beq_self_eq_true _
  · intro j hj hfit
    -- an occurrence further on has its last element in the suffix
    rw [occursAt, beq_eq_false_iff_ne]
    intro heq
    obtain ⟨d, rfl⟩ : ∃ d, j = xs.length + 1 + d := ⟨j - xs.length - 1, by omega⟩
    have hget := congrArg (fun l => l[init.length]?) heq
    simp only [List.length_append, List.length_singleton] at hget hfit
    rw [List.getElem?_take_of_lt (by omega), List.getElem?_drop,
      List.getElem?_append_right (by simp; omega), List.getElem?_append_right (by simp)] at hget
    simp only [Nat.sub_self, List.getElem?_singleton, if_true] at hget
    exact hc (List.mem_of_getElem? hget)

end Windows

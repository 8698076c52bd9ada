import Kuasar.Data.FirstMatch

/-!
# Data.Slots — a row of slots, each empty or taken

A row of slots is searched for the first empty one from a position on (`firstEmpty`), and the
slot of an occupant is emptied (`release`). Both are described slot by slot: where the search
ends, and what a release leaves at every position of a row in which the occupant stands at most
once.
-/

namespace Slots

open FirstMatch

variable {α : Type*} {slots : List (Option α)} {start i : ℕ} {a : α}

/-- The first empty slot that is not before `start`. -/
def firstEmpty (start : ℕ) (slots : List (Option α)) : Option ℕ :=
  ((slots.drop start).findIdx? Option.isNone).map (start + ·)

/-- The slot found is empty, and those between the start and it are taken. -/
theorem firstEmpty_eq_some (h : firstEmpty start slots = some i) :
    start ≤ i ∧ slots[i]? = some none ∧ ∀ j, start ≤ j → j < i → slots[j]? ≠ some none := by
  obtain ⟨k, hk, rfl⟩ := Option.map_eq_some_iff.mp h
  obtain ⟨hlt, hempty, hbefore⟩ := List.findIdx?_eq_some_iff_getElem.mp hk
  refine ⟨by omega, ?_, ?_⟩
  · rw [← List.getElem?_drop, List.getElem?_eq_getElem hlt, Option.isNone_iff_eq_none.mp hempty]
  · intro j hj hji hnone
    have hjk : j - start < k := by omega
    have hget : (slots.drop start)[j - start]? = some none := by
      rw [List.getElem?_drop, Nat.add_sub_cancel' hj]
      exact hnone
    have hget' := (List.getElem?_eq_some_iff.mp hget).2
    exact hbefore (j - start) hjk (by rw [hget']; rfl)

theorem firstEmpty_eq_none (h : firstEmpty start slots = none) (hi : start ≤ i) :
    slots[i]? ≠ some none := by
  intro hempty
  have hnone := List.findIdx?_eq_none_iff.mp (Option.map_eq_none_iff.mp h) none
  have hmem : none ∈ slots.drop start := by
    apply List.mem_of_getElem?
    rw [List.getElem?_drop, Nat.add_sub_cancel' hi]
    exact hempty
  exact absurd (hnone hmem) (by simp)

variable [DecidableEq α]

/-- Empty the first slot of an occupant. -/
def release (a : α) (slots : List (Option α)) : List (Option α) :=
  updateFirst (fun slot => decide (slot = some a)) (fun _ => none) slots

/-- A release changes nothing but the slots of the occupant. -/
theorem getElem?_release (honce : ∀ j k : ℕ, slots[j]? = some (some a) →
    slots[k]? = some (some a) → j = k) (i : ℕ) :
    (release a slots)[i]? = if slots[i]? = some (some a) then some none else slots[i]? := by
  rw [release, getElem?_updateFirst]
  by_cases hat : slots[i]? = some (some a)
  · -- the occupant stands nowhere else, so this is where it is found
    have hfound : slots.findIdx? (fun slot => decide (slot = some a)) = some i := by
      obtain ⟨hlt, hget⟩ := List.getElem?_eq_some_iff.mp hat
      rw [List.findIdx?_eq_some_iff_getElem]
      refine ⟨hlt, by simp [hget], ?_⟩
      intro j hji hj
      have hget' : slots[j]? = some (some a) := by
        rw [List.getElem?_eq_getElem (by omega), of_decide_eq_true hj]
      exact absurd (honce j i hget' hat) (by omega)
    rw [if_pos hfound, if_pos hat, hat]
    rfl
  · have hnot : slots.findIdx? (fun slot => decide (slot = some a)) ≠ some i := by
      intro hfound
      obtain ⟨hlt, hget, -⟩ := List.findIdx?_eq_some_iff_getElem.mp hfound
      apply hat
      rw [List.getElem?_eq_getElem hlt, of_decide_eq_true hget]
    rw [if_neg hnot, if_neg hat]

end Slots

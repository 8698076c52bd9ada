import Mathlib.Data.List.Pairwise
import Mathlib.Tactic.Common

/-!
# Data.Moves — moves made one after another

A move copies what is at its source to its destination. A list of moves is meant to be made at
once: every destination gets what was at its source before. Made one after another, a move can
overwrite the source of a later one.

`delivers_iff`: moves to different destinations deliver what they are meant to if and only if a
move to the source of a later one brings what is there already.
-/

namespace Moves

variable {κ φ : Type*} [DecidableEq κ]

/-- The moves, as pairs of destination and source, made in their order. -/
def seq : List (κ × κ) → (κ → φ) → κ → φ
  | [], f => f
  | m :: ms, f => seq ms (Function.update f m.1 (f m.2))

/-- Every destination gets what was at its source. -/
def Delivers (ms : List (κ × κ)) (f : κ → φ) : Prop := ∀ m ∈ ms, seq ms f m.1 = f m.2

/-- No move changes the source of a later one. -/
def Undisturbed (ms : List (κ × κ)) (f : κ → φ) : Prop :=
  ms.Pairwise fun m later => later.2 = m.1 → f m.2 = f m.1

variable {ms : List (κ × κ)} {f : κ → φ}

/-- What is no destination stays. -/
theorem seq_of_notMem {k : κ} (hk : k ∉ ms.map Prod.fst) : seq ms f k = f k := by
  induction ms generalizing f with
  | nil => rfl
  | cons m ms ih =>
    rw [List.map_cons, List.mem_cons, not_or] at hk
    rw [seq, ih hk.2, Function.update_of_ne hk.1]

theorem seq_of_source {m : κ × κ} (hd : (ms.map Prod.fst).Nodup) (hm : m ∈ ms)
    (hsource : m.2 ∉ ms.map Prod.fst) : seq ms f m.1 = f m.2 := by
  induction ms generalizing f with
  | nil => cases hm
  | cons n ms ih =>
    rw [List.map_cons, List.nodup_cons] at hd
    rw [List.map_cons, List.mem_cons, not_or] at hsource
    rw [seq]
    rcases List.mem_cons.mp hm with rfl | hm
    · rw [seq_of_notMem hd.1, Function.update_self]
    · rw [ih hd.2 hm hsource.2, Function.update_of_ne hsource.1]

/-- The sources of moves are unchanged if the one that changes has what it had. -/
theorem update_source {d : κ} {v : φ} (h : ∀ m ∈ ms, m.2 = d → v = f d) {m : κ × κ}
    (hm : m ∈ ms) : Function.update f d v m.2 = f m.2 := by
  by_cases heq : m.2 = d
  · rw [heq, Function.update_self, h m hm heq]
  · rw [Function.update_of_ne heq]

theorem undisturbed_update {d : κ} {v : φ} (hd : d ∉ ms.map Prod.fst)
    (h : ∀ m ∈ ms, m.2 = d → v = f d) :
    Undisturbed ms (Function.update f d v) ↔ Undisturbed ms f := by
  apply List.Pairwise.iff_of_mem
  intro m later hm _
  have hne : m.1 ≠ d := by
    rintro rfl
    exact hd (List.mem_map.mpr ⟨m, hm, rfl⟩)
  rw [update_source h hm, Function.update_of_ne hne]

/-- Moves to different destinations, made one after another. -/
theorem delivers_iff (hd : (ms.map Prod.fst).Nodup) : Delivers ms f ↔ Undisturbed ms f := by
  induction ms generalizing f with
  | nil => exact iff_of_true (fun m hm => absurd hm List.not_mem_nil) List.Pairwise.nil
  | cons n ms ih =>
    rw [List.map_cons, List.nodup_cons] at hd
    have hhead : seq ms (Function.update f n.1 (f n.2)) n.1 = f n.2 := by
      rw [seq_of_notMem hd.1, Function.update_self]
    constructor
    · intro hdel
      have hrest : ∀ m ∈ ms, seq ms (Function.update f n.1 (f n.2)) m.1 = f m.2 :=
        fun m hm => hdel m (List.mem_cons_of_mem n hm)
      -- a later move out of the first destination delivers what was moved there
      have hkeep : ∀ m ∈ ms, m.2 = n.1 → f n.2 = f n.1 := by
        intro m hm heq
        have hbrought : seq ms (Function.update f n.1 (f n.2)) m.1 = f n.2 := by
          rw [seq_of_source hd.2 hm (heq ▸ hd.1), heq, Function.update_self]
        rw [← hbrought, hrest m hm, heq]
      have hlater : Delivers ms (Function.update f n.1 (f n.2)) := by
        intro m hm
        rw [hrest m hm, update_source hkeep hm]
      exact List.Pairwise.cons hkeep ((undisturbed_update hd.1 hkeep).mp ((ih hd.2).mp hlater))
    · intro hund
      obtain ⟨hkeep, hund⟩ := List.pairwise_cons.mp hund
      have hlater := (ih hd.2).mpr ((undisturbed_update hd.1 hkeep).mpr hund)
      intro m hm
      rcases List.mem_cons.mp hm with rfl | hm
      · exact hhead
      · show seq ms (Function.update f n.1 (f n.2)) m.1 = f m.2
        rw [hlater m hm, update_source hkeep hm]

end Moves

import Mathlib.Tactic.Common

/-!
# Data.Chain — handlers that run in order and are rolled back in reverse

A chain runs its handlers one after another. At the first that fails it stops, and the
handlers that had finished are rolled back, the latest first. The index of the handler that
finished last starts at the first handler, so that this one is rolled back even if it is the
one that failed.

`run_ok_iff` and `run_error` take a run of a chain apart into the handlers that finished, the
one that failed and the rollback.
-/

/-- A step with its rollback. A step leaves a state behind whether or not it fails. -/
structure Handler (σ ε : Type*) where
  handle : σ → σ × Option ε
  rollback : σ → σ

namespace Chain

variable {σ ε : Type*}

/-- Roll back the handlers of a list, in its order. -/
def rollback : List (Handler σ ε) → σ → σ
  | [], s => s
  | h :: done, s => rollback done (h.rollback s)

/-- What a failure of `h` rolls back; `done` are the handlers that finished, latest first. -/
def finished (done : List (Handler σ ε)) (h : Handler σ ε) : List (Handler σ ε) :=
  if done.isEmpty then [h] else done

variable {done hs : List (Handler σ ε)} {s t : σ}

theorem finished_of_ne_nil {h : Handler σ ε} (hd : done ≠ []) : finished done h = done := by
  rw [finished, if_neg (by simpa using hd)]

def runFrom (done : List (Handler σ ε)) : List (Handler σ ε) → σ → σ × Option ε
  | [], s => (s, none)
  | h :: hs, s =>
    match h.handle s with
    | (s, none) => runFrom (h :: done) hs s
    | (s, some e) => (rollback (finished done h) s, some e)

def run (hs : List (Handler σ ε)) (s : σ) : σ × Option ε := runFrom [] hs s

/-- The state after handlers that all finish. -/
def forward : List (Handler σ ε) → σ → Option σ
  | [], s => some s
  | h :: hs, s =>
    match h.handle s with
    | (s, none) => forward hs s
    | (_, some _) => none

theorem forward_cons {h : Handler σ ε} :
    forward (h :: hs) s = some t ↔ ∃ s', h.handle s = (s', none) ∧ forward hs s' = some t := by
  rcases hh : h.handle s with ⟨s', _ | e⟩ <;> simp [forward, hh]

theorem forward_append {pre post : List (Handler σ ε)} :
    forward (pre ++ post) s = some t ↔
      ∃ s', forward pre s = some s' ∧ forward post s' = some t := by
  induction pre generalizing s with
  | nil => simp [forward]
  | cons h pre ih =>
    rw [List.cons_append]
    constructor
    · intro hf
      obtain ⟨s₁, hs₁, hf⟩ := forward_cons.mp hf
      obtain ⟨s₂, hs₂, hf⟩ := ih.mp hf
      exact ⟨s₂, forward_cons.mpr ⟨s₁, hs₁, hs₂⟩, hf⟩
    · rintro ⟨s₂, hpre, hf⟩
      obtain ⟨s₁, hs₁, hpre⟩ := forward_cons.mp hpre
      exact forward_cons.mpr ⟨s₁, hs₁, ih.mpr ⟨s₂, hpre, hf⟩⟩

theorem runFrom_ok_iff : runFrom done hs s = (t, none) ↔ forward hs s = some t := by
  induction hs generalizing done s with
  | nil => simp [runFrom, forward]
  | cons h hs ih =>
    rcases hh : h.handle s with ⟨s', _ | e⟩
    · simp only [runFrom, hh, forward]
      exact ih
    · simp [runFrom, hh, forward]

/-- A chain finishes if every handler does. -/
theorem run_ok_iff : run hs s = (t, none) ↔ forward hs s = some t :=
  runFrom_ok_iff

theorem runFrom_error {e : ε} (h : runFrom done hs s = (t, some e)) :
    ∃ pre x post s₁ s₂, hs = pre ++ x :: post ∧ forward pre s = some s₁ ∧
      x.handle s₁ = (s₂, some e) ∧ t = rollback (finished (pre.reverse ++ done) x) s₂ := by
  induction hs generalizing done s with
  | nil => simp [runFrom] at h
  | cons x hs ih =>
    rcases hx : x.handle s with ⟨s', _ | e'⟩
    · simp only [runFrom, hx] at h
      obtain ⟨pre, y, post, s₁, s₂, rfl, hpre, hy, ht⟩ := ih h
      refine ⟨x :: pre, y, post, s₁, s₂, rfl, forward_cons.mpr ⟨s', hx, hpre⟩, hy, ?_⟩
      rw [ht, List.reverse_cons, List.append_assoc, List.singleton_append]
    · simp only [runFrom, hx, Prod.mk.injEq, Option.some.injEq] at h
      obtain ⟨ht, rfl⟩ := h
      exact ⟨[], x, hs, s, s', rfl, rfl, hx, ht.symm⟩

/-- A chain fails at one of its handlers, after those before it finished. -/
theorem run_error {e : ε} (h : run hs s = (t, some e)) :
    ∃ pre x post s₁ s₂, hs = pre ++ x :: post ∧ forward pre s = some s₁ ∧
      x.handle s₁ = (s₂, some e) ∧ t = rollback (finished pre.reverse x) s₂ := by
  obtain ⟨pre, x, post, s₁, s₂, hhs, hpre, hx, ht⟩ := runFrom_error h
  exact ⟨pre, x, post, s₁, s₂, hhs, hpre, hx, by simpa using ht⟩

theorem rollback_append {xs ys : List (Handler σ ε)} :
    rollback (xs ++ ys) s = rollback ys (rollback xs s) := by
  induction xs generalizing s with
  | nil => rfl
  | cons x xs ih => exact ih

end Chain

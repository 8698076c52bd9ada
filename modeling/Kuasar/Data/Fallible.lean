import Mathlib.Data.List.Basic

/-!
# Data.Fallible — computations that end at the first error

What is known of a computation that came to its end: each of its steps did (`bind_ok`), and what
every successful step of a loop keeps holds after it (`foldlM_invariant`). And what makes one come
to its end: that each step `Succeeds`.
-/

universe u v w

namespace Fallible

variable {ε : Type u} {α β : Type v}

/-- Both parts of a computation that succeeds succeed. -/
theorem bind_ok {x : Except ε α} {f : α → Except ε β} {b : β} (h : x >>= f = .ok b) :
    ∃ a, x = .ok a ∧ f a = .ok b := by
  cases x with
  | error e => cases h
  | ok a => exact ⟨a, rfl, h⟩

/-- A check and what follows it. -/
theorem bind_ok_iff {x : Except ε PUnit} {y : Except ε β} {b : β} :
    (x >>= fun _ => y) = .ok b ↔ x = .ok .unit ∧ y = .ok b := by
  constructor
  · intro h
    obtain ⟨u, hx, hy⟩ := bind_ok h
    exact ⟨hx, hy⟩
  · rintro ⟨hx, hy⟩
    rw [hx]
    exact hy

def stepIf (c : Prop) [Decidable c] (step : β → Except ε β) (s : β) : Except ε β :=
  if c then step s else .ok s

theorem stepIf_ok {c : Prop} [Decidable c] {step : β → Except ε β} {s s' : β}
    (h : stepIf c step s = .ok s') : (c ∧ step s = .ok s') ∨ (¬ c ∧ s' = s) := by
  unfold stepIf at h
  split at h
  · exact Or.inl ⟨‹c›, h⟩
  · cases h
    exact Or.inr ⟨‹¬ c›, rfl⟩

def Succeeds (x : Except ε α) : Prop := ∃ a, x = .ok a

theorem Succeeds.bind {x : Except ε α} {f : α → Except ε β} (h : Succeeds x)
    (hf : ∀ a, Succeeds (f a)) : Succeeds (x >>= f) := by
  obtain ⟨a, rfl⟩ := h
  exact hf a

theorem Succeeds.stepIf {c : Prop} [Decidable c] {step : β → Except ε β} {s : β}
    (h : c → Succeeds (step s)) : Succeeds (stepIf c step s) := by
  unfold Fallible.stepIf
  split
  · exact h ‹c›
  · exact ⟨s, rfl⟩

theorem Succeeds.foldlM {γ : Type w} {step : β → γ → Except ε β}
    (h : ∀ s x, Succeeds (step s x)) (xs : List γ) (s : β) : Succeeds (xs.foldlM step s) := by
  induction xs generalizing s with
  | nil => exact ⟨s, rfl⟩
  | cons x xs ih => exact (h s x).bind ih

/-- A loop of checks succeeds if every check does. -/
theorem forM_ok_iff {γ : Type w} {check : γ → Except ε PUnit} {xs : List γ} :
    xs.forM check = .ok .unit ↔ ∀ x ∈ xs, check x = .ok .unit := by
  induction xs with
  | nil => exact ⟨fun _ x hx => absurd hx List.not_mem_nil, fun _ => rfl⟩
  | cons x xs ih =>
    have hcons : (x :: xs).forM check = check x >>= fun _ => xs.forM check := rfl
    rw [hcons, List.forall_mem_cons, ← ih]
    constructor
    · intro h
      obtain ⟨u, hx, hxs⟩ := bind_ok h
      exact ⟨hx, hxs⟩
    · rintro ⟨hx, hxs⟩
      rw [hx]
      exact hxs

/-- What holds of the elements that were passed and the state holds at the end of a loop. -/
theorem foldlM_invariant {γ : Type w} {step : β → γ → Except ε β} (P : List γ → β → Prop)
    (hstep : ∀ done x s s', P done s → step s x = .ok s' → P (done ++ [x]) s')
    {xs done : List γ} {s s' : β} (hinit : P done s) (h : xs.foldlM step s = .ok s') :
    P (done ++ xs) s' := by
  induction xs generalizing done s with
  | nil =>
    cases h
    rw [List.append_nil]
    exact hinit
  | cons x xs ih =>
    obtain ⟨s₁, hs₁, hrest⟩ := bind_ok h
    rw [List.append_cons]
    exact ih (hstep done x s s₁ hinit hs₁) hrest

end Fallible

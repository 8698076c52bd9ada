import Mathlib.Logic.Basic

/-!
# Tla.Core — state machines, reachable states, inductive invariants

The state-machine vocabulary every model of this development is written in: a
state predicate, an action (a relation between the state before and the state
after), the states an initial predicate and an action reach, and the induction
rule for invariants.

Machines whose steps carry a label use `Guarded`: the steps of a labelled family
that meet a condition in the state they start from. A theorem about
`Reachable Init (Guarded ok next)` is a theorem about every run all of whose
steps meet `ok`; with `ok` trivial it is about every run.
-/

namespace Tla

universe u v

abbrev StatePred (σ : Type u) := σ → Prop

/-- A relation between the state before a step and the state after it. -/
abbrev Action (σ : Type u) := σ → σ → Prop

variable {σ : Type u} {ℓ : Type v}

/-- The states reached from `Init` by steps of `Next`. -/
inductive Reachable (Init : StatePred σ) (Next : Action σ) : StatePred σ where
  | init {s} (h : Init s) : Reachable Init Next s
  | step {s s'} (hr : Reachable Init Next s) (hn : Next s s') : Reachable Init Next s'

/-- The steps of `next` whose label meets `ok` in the state before the step. -/
def Guarded (ok : ℓ → StatePred σ) (next : ℓ → Action σ) : Action σ := fun s s' =>
  ∃ l, ok l s ∧ next l s s'

def AnyStep (next : ℓ → Action σ) : Action σ := fun s s' => ∃ l, next l s s'

variable {Init Inv : StatePred σ} {Next : Action σ} {ok ok' : ℓ → StatePred σ}
  {next : ℓ → Action σ} {s s' : σ}

theorem Reachable.invariant (hinit : ∀ s, Init s → Inv s)
    (hstep : ∀ s s', Next s s' → Inv s → Inv s') (h : Reachable Init Next s) : Inv s := by
  induction h with
  | init h => exact hinit _ h
  | step _ hn ih => exact hstep _ _ hn ih

/-- Inductive invariance for the guarded steps of a labelled family: the guard
is available where a step is taken. -/
theorem Reachable.guarded_invariant (hinit : ∀ s, Init s → Inv s)
    (hstep : ∀ l s s', ok l s → next l s s' → Inv s → Inv s')
    (h : Reachable Init (Guarded ok next) s) : Inv s := by
  apply h.invariant hinit
  intro s s' hn hinv
  obtain ⟨l, hok, hl⟩ := hn
  exact hstep l s s' hok hl hinv

theorem Reachable.anyStep (hr : Reachable Init (AnyStep next) s) (l : ℓ) (hn : next l s s') :
    Reachable Init (AnyStep next) s' :=
  hr.step ⟨l, hn⟩

/-- A run whose steps all meet a condition meets a weaker one. -/
theorem Reachable.weaken (hok : ∀ l s, ok l s → ok' l s)
    (h : Reachable Init (Guarded ok next) s) : Reachable Init (Guarded ok' next) s := by
  induction h with
  | init h => exact .init h
  | step _ hn ih =>
    obtain ⟨l, hl, hn⟩ := hn
    exact ih.step ⟨l, hok l _ hl, hn⟩

/-- A run whose steps all meet a condition is a run. -/
theorem Reachable.unguarded (h : Reachable Init (Guarded ok next) s) :
    Reachable Init (AnyStep next) s := by
  induction h with
  | init h => exact .init h
  | step _ hn ih =>
    obtain ⟨l, -, hl⟩ := hn
    exact ih.anyStep l hl

/-! ## Machines whose steps are functions -/

/-- The steps of a family of partial functions. -/
def StepOf (step : ℓ → σ → Option σ) : ℓ → Action σ := fun l s s' => step l s = some s'

/-- The state that a sequence of steps leads to, if each of them can be taken. -/
def replay (step : ℓ → σ → Option σ) : List ℓ → σ → Option σ
  | [], s => some s
  | l :: ls, s => (step l s).bind (replay step ls)

variable {step : ℓ → σ → Option σ} {ls : List ℓ}

/-- A sequence of steps that meet a condition leads to a reachable state. -/
theorem Reachable.replay_guarded (hok : ∀ l ∈ ls, ∀ s, ok l s)
    (hr : Reachable Init (Guarded ok (StepOf step)) s)
    (h : replay step ls s = some s') : Reachable Init (Guarded ok (StepOf step)) s' := by
  induction ls generalizing s with
  | nil =>
    cases h
    exact hr
  | cons l ls ih =>
    simp only [replay] at h
    rcases hs : step l s with _ | t
    · simp [hs] at h
    · rw [hs, Option.bind_some] at h
      apply ih (fun l' hl' => hok l' (List.mem_cons_of_mem l hl')) _ h
      exact hr.step ⟨l, hok l List.mem_cons_self s, hs⟩

/-- A sequence of steps from an initial state leads to a reachable state. -/
theorem Reachable.replay (hinit : Init s) (h : Tla.replay step ls s = some s') :
    Reachable Init (AnyStep (StepOf step)) s' := by
  have hr : Reachable Init (Guarded (fun _ _ => True) (StepOf step)) s' :=
    replay_guarded (fun _ _ _ => trivial) (.init hinit) h
  exact hr.unguarded

/-- A measure that every step decreases bounds the length of a run. -/
theorem length_replay_le {left : σ → Nat}
    (hstep : ∀ l s s', step l s = some s' → left s' < left s)
    (h : replay step ls s = some s') : ls.length + left s' ≤ left s := by
  induction ls generalizing s with
  | nil =>
    cases h
    simp
  | cons l ls ih =>
    obtain ⟨t, ht, hrest⟩ := Option.bind_eq_some_iff.mp h
    have hlt := hstep l s t ht
    have hle := ih hrest
    rw [List.length_cons]
    omega

end Tla

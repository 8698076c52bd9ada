import Mathlib.Algebra.GroupWithZero.Nat
import Mathlib.Algebra.Order.BigOperators.Group.List
import Mathlib.Algebra.Order.Group.Nat
import Kuasar.Tla.Core

/-!
# Tla.Tasks — interleaved tasks over a shared state

A system is a shared state and a list of tasks, each at a program counter `τ`.
One step of the system is one step of one task: it reads and writes the shared
state and moves the task to its next program counter.

Invariants of such systems come in three layers, and `Outline` names them: what
holds of the shared state alone, what holds of each task against the shared
state, and what holds between any two distinct tasks. `Outline.step` is the
Owicki–Gries rule: the moving task establishes its own part, and does not
interfere with the parts of the others.
-/

namespace Tla

universe u v

variable {γ : Type u} {τ : Type v}

/-- A system state: the shared state and the program counter of every task. -/
structure Sys (γ : Type u) (τ : Type v) where
  shared : γ
  tasks : List τ

/-- Task `i` takes a step of `act`. -/
def TaskStep (act : γ → τ → γ → τ → Prop) (i : ℕ) : Action (Sys γ τ) := fun s s' =>
  ∃ l l', s.tasks[i]? = some l ∧ act s.shared l s'.shared l' ∧
    s'.tasks = s.tasks.set i l'

variable {s : Sys γ τ} {i : ℕ} {l m l' : τ} {ts : List τ}

theorem TaskStep.of_step {act : γ → τ → γ → τ → Prop} {g : γ} (hi : s.tasks[i]? = some l)
    (h : act s.shared l g m) : TaskStep act i s ⟨g, s.tasks.set i m⟩ :=
  ⟨l, m, hi, h, rfl⟩

/-! ## The task list after one step -/

/-- After task `i` moved to `l'`, every task is task `i` at `l'` or stands where
it stood. -/
theorem getElem?_set_cases {j : ℕ} (h : (ts.set i l')[j]? = some m) :
    (j = i ∧ m = l') ∨ (j ≠ i ∧ ts[j]? = some m) := by
  by_cases hji : j = i
  · subst hji
    rw [List.getElem?_set_self'] at h
    obtain ⟨_, _, rfl⟩ := Option.map_eq_some_iff.mp h
    exact Or.inl ⟨rfl, rfl⟩
  · rw [List.getElem?_set_ne (fun h => hji h.symm)] at h
    exact Or.inr ⟨hji, h⟩

/-- The task that moved is where it moved to. -/
theorem mem_set_self (l' : τ) (h : ts[i]? = some l) : l' ∈ ts.set i l' :=
  List.mem_set (List.getElem?_eq_some_iff.mp h).1 l'

/-- A task at another program counter than the one that moved is still there. -/
theorem mem_set_of_ne (l' : τ) (h : ts[i]? = some l) (hm : m ∈ ts) (hne : m ≠ l) :
    m ∈ ts.set i l' := by
  obtain ⟨j, hj⟩ := List.mem_iff_getElem?.mp hm
  apply List.mem_of_getElem? (i := j)
  rw [List.getElem?_set_ne, hj]
  rintro rfl
  rw [hj] at h
  exact hne (Option.some.inj h)

/-- The total weight of the tasks changes by the weight of the task that moved. -/
theorem sum_weight_set {M : Type*} [AddCommMonoid M] {w : τ → M} (l' : τ) (h : ts[i]? = some l) :
    ((ts.set i l').map w).sum + w l = (ts.map w).sum + w l' := by
  obtain ⟨hlt, rfl⟩ := List.getElem?_eq_some_iff.mp h
  rw [((List.set_perm_cons_eraseIdx hlt l').map w).sum_eq,
    ← ((List.getElem_cons_eraseIdx_perm hlt).map w).sum_eq]
  simp only [List.map_cons, List.sum_cons]
  rw [add_right_comm, add_comm (w l'), add_right_comm]

/-- Tasks that are all at one program counter of no weight weigh nothing. -/
theorem sum_weight_idle {M : Type*} [AddCommMonoid M] {w : τ → M} (hw : w l = 0)
    (h : ∀ m ∈ ts, m = l) : (ts.map w).sum = 0 := by
  refine List.sum_eq_zero fun n hn => ?_
  obtain ⟨m, hm, rfl⟩ := List.mem_map.mp hn
  rw [h m hm, hw]

theorem weight_le_sum {w : τ → ℕ} (h : ts[i]? = some l) : w l ≤ (ts.map w).sum :=
  List.le_sum_of_mem (List.mem_map_of_mem (List.mem_of_getElem? h))

/-- So do two distinct tasks. -/
theorem weight_add_le_sum {w : τ → ℕ} {j : ℕ} (hij : i ≠ j) (hi : ts[i]? = some l)
    (hj : ts[j]? = some m) : w l + w m ≤ (ts.map w).sum := by
  obtain ⟨hlt, rfl⟩ := List.getElem?_eq_some_iff.mp hi
  have hmem : m ∈ ts.eraseIdx i := List.mem_eraseIdx_iff_getElem?.mpr ⟨j, hij.symm, hj⟩
  have hle := List.le_sum_of_mem (List.mem_map_of_mem (f := w) hmem)
  rw [← ((List.getElem_cons_eraseIdx_perm hlt).map w).sum_eq, List.map_cons, List.sum_cons]
  omega

/-- Where the task that moved has the same, all have the same. -/
theorem flatMap_set_of_eq {α : Type*} {f : τ → List α} (h : ts[i]? = some l) (hf : f l' = f l) :
    (ts.set i l').flatMap f = ts.flatMap f := by
  obtain ⟨hlt, rfl⟩ := List.getElem?_eq_some_iff.mp h
  have hset : (ts.map f).set i (f ts[i]) = ts.map f := by
    rw [← List.map_set, List.set_getElem_self]
  rw [List.flatMap_def, List.map_set, hf, hset, List.flatMap_def]

/-- Where only one task has something, that is all there is. -/
theorem flatMap_of_alone {α : Type*} {f : τ → List α} (h : ts[i]? = some l)
    (hother : ∀ (j : ℕ) (m : τ), j ≠ i → ts[j]? = some m → f m = []) : ts.flatMap f = f l := by
  induction ts generalizing i with
  | nil => simp at h
  | cons m ts ih =>
    rw [List.flatMap_cons]
    cases i with
    | zero =>
      have hm : m = l := by simpa using h
      have hnil : ts.flatMap f = [] := by
        refine List.flatMap_eq_nil_iff.mpr fun x hx => ?_
        obtain ⟨j, hj⟩ := List.mem_iff_getElem?.mp hx
        exact hother (j + 1) x (by omega) (by simpa using hj)
      rw [hnil, List.append_nil, hm]
    | succ i =>
      have hts : ts[i]? = some l := by simpa using h
      have hfirst : f m = [] := hother 0 m (by omega) (by simp)
      rw [hfirst, List.nil_append]
      exact ih hts fun j x hj hx => hother (j + 1) x (by omega) (by simpa using hx)

/-! ## Proof outlines -/

/-- The three layers of an invariant: `inv` of the shared state, `loc` of each
task, `pair` between distinct tasks. -/
structure Outline (inv : γ → Prop) (loc : γ → τ → Prop) (pair : γ → τ → τ → Prop)
    (s : Sys γ τ) : Prop where
  shared : inv s.shared
  each : ∀ (i : ℕ) (l : τ), s.tasks[i]? = some l → loc s.shared l
  apart : ∀ (i j : ℕ) (l m : τ), i ≠ j → s.tasks[i]? = some l → s.tasks[j]? = some m →
    pair s.shared l m

variable {inv : γ → Prop} {loc : γ → τ → Prop} {pair : γ → τ → τ → Prop}

/-- An outline holds where all tasks stand at one program counter, if it holds of that. -/
theorem Outline.of_all {l₀ : τ} (hall : ∀ l ∈ s.tasks, l = l₀) (hinv : inv s.shared)
    (hloc : loc s.shared l₀) (hpair : pair s.shared l₀ l₀) : Outline inv loc pair s := by
  refine ⟨hinv, ?_, ?_⟩
  · intro i l hl
    rw [hall l (List.mem_of_getElem? hl)]
    exact hloc
  · intro i j l m _ hl hm
    rw [hall l (List.mem_of_getElem? hl), hall m (List.mem_of_getElem? hm)]
    exact hpair

/-- The Owicki–Gries rule for one step of task `i`, from `l` to `l'`. -/
theorem Outline.step {s s' : Sys γ τ} {i : ℕ} {l' : τ}
    (hset : s'.tasks = s.tasks.set i l')
    (hinv : inv s'.shared) (hself : loc s'.shared l')
    (hother : ∀ (j : ℕ) (m : τ), j ≠ i → s.tasks[j]? = some m → loc s'.shared m)
    (hpair : ∀ (j : ℕ) (m : τ), j ≠ i → s.tasks[j]? = some m →
      pair s'.shared l' m ∧ pair s'.shared m l')
    (hpairs : ∀ (j k : ℕ) (m n : τ), j ≠ k → j ≠ i → k ≠ i → s.tasks[j]? = some m →
      s.tasks[k]? = some n → pair s'.shared m n) :
    Outline inv loc pair s' := by
  refine ⟨hinv, ?_, ?_⟩
  · intro j m hj
    rw [hset] at hj
    rcases getElem?_set_cases hj with ⟨-, rfl⟩ | ⟨hne, hm⟩
    · exact hself
    · exact hother j m hne hm
  · intro j k m n hjk hj hk
    rw [hset] at hj hk
    rcases getElem?_set_cases hj with ⟨rfl, rfl⟩ | ⟨hji, hm⟩
    · rcases getElem?_set_cases hk with ⟨rfl, rfl⟩ | ⟨hki, hn⟩
      · exact absurd rfl hjk
      · exact (hpair k n hki hn).1
    · rcases getElem?_set_cases hk with ⟨rfl, rfl⟩ | ⟨hki, hn⟩
      · exact (hpair j m hji hm).2
      · exact hpairs j k m n hjk hji hki hm hn

end Tla

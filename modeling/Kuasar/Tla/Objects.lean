import Kuasar.Tla.Tasks

/-!
# Tla.Objects — tasks that work on one object each

A world has a shared state, a list of objects and a list of tasks. A task is idle
or in the middle of a call on one object; a move of a call reads and writes the
shared state, the object it is on and its own progress, and leaves the other
objects alone.

`Coherent` is the shape of an invariant of such a world, given by what holds of
an object, of a call against its object, and between two calls on the same
object. `Coherent.step` lifts what one move preserves to what a step of the world
preserves. The weight lemmas do the same for sums over objects and tasks.
-/

namespace Tla

universe u v w x

variable {γ : Type u} {ο : Type v} {τ : Type w} {ε : Type x}

/-- Shared state, objects, and for each task the object and the progress of its
call. -/
structure World (γ : Type u) (ο : Type v) (τ : Type w) where
  shared : γ
  objects : List ο
  tasks : List (Option (ℕ × τ))

/-- Task `k` makes a move with effect `e` on object `i`. -/
def ObjectStep (move : ε → γ → ο → Option τ → γ → ο → Option τ → Prop) (k i : ℕ) (e : ε) :
    Action (World γ ο τ) := fun s s' =>
  ∃ o o' c c', s.tasks[k]? = some (c.map (Prod.mk i)) ∧ s.objects[i]? = some o ∧
    move e s.shared o c s'.shared o' c' ∧ s'.objects = s.objects.set i o' ∧
    s'.tasks = s.tasks.set k (c'.map (Prod.mk i))

variable {e : ε} {s s' : World γ ο τ} {k i : ℕ} {c : Option τ}
  {move : ε → γ → ο → Option τ → γ → ο → Option τ → Prop}

section

variable {u : γ} {o p : ο} {d : Option τ}

/-- A move of a call on an object of the world is a step of the world. -/
theorem ObjectStep.of_move (hk : s.tasks[k]? = some (c.map (Prod.mk i)))
    (hi : s.objects[i]? = some o) (h : move e s.shared o c u p d) :
    ObjectStep move k i e s ⟨u, s.objects.set i p, s.tasks.set k (d.map (Prod.mk i))⟩ :=
  ⟨o, p, c, d, hk, hi, h, rfl, rfl⟩

theorem ObjectStep.idle (hk : s.tasks[k]? = some none) (hi : s.objects[i]? = some o)
    (h : move e s.shared o none u p d) :
    ObjectStep move k i e s ⟨u, s.objects.set i p, s.tasks.set k (d.map (Prod.mk i))⟩ :=
  .of_move (c := none) hk hi h

theorem ObjectStep.call {c : τ} (hk : s.tasks[k]? = some (some (i, c)))
    (hi : s.objects[i]? = some o) (h : move e s.shared o (some c) u p d) :
    ObjectStep move k i e s ⟨u, s.objects.set i p, s.tasks.set k (d.map (Prod.mk i))⟩ :=
  .of_move (c := some c) hk hi h

end

/-! ## Invariants -/

/-- An invariant of objects, of calls against their object, and of pairs of calls
on one object. -/
structure Coherent (objInv : ο → Prop) (callInv : ο → τ → Prop) (pair : τ → τ → Prop)
    (s : World γ ο τ) : Prop where
  object : ∀ (i : ℕ) (o : ο), s.objects[i]? = some o → objInv o
  call : ∀ (k i : ℕ) (c : τ), s.tasks[k]? = some (some (i, c)) →
    ∃ o, s.objects[i]? = some o ∧ callInv o c
  apart : ∀ (j k i : ℕ) (c d : τ), j ≠ k → s.tasks[j]? = some (some (i, c)) →
    s.tasks[k]? = some (some (i, d)) → pair c d

variable {objInv : ο → Prop} {callInv : ο → τ → Prop} {pair : τ → τ → Prop}

/-- With no call under way, the invariant is about the objects alone. -/
theorem Coherent.of_idle (hidle : ∀ l ∈ s.tasks, l = none)
    (hobj : ∀ (i : ℕ) (o : ο), s.objects[i]? = some o → objInv o) :
    Coherent objInv callInv pair s := by
  have hnone : ∀ {k i : ℕ} {c : τ}, s.tasks[k]? ≠ some (some (i, c)) := by
    intro k i c hk
    have := hidle _ (List.mem_of_getElem? hk)
    simp at this
  refine ⟨hobj, ?_, ?_⟩
  · intro k i c hk
    exact absurd hk hnone
  · intro j k i c d _ hj
    exact absurd hj hnone

/-- A task list entry on object `i` is the call it carries. -/
theorem map_mk_eq_some {j : ℕ} {d : τ} (h : c.map (Prod.mk i) = some (j, d)) :
    j = i ∧ c = some d := by
  cases c with
  | none => simp at h
  | some c =>
    simp only [Option.map_some, Option.some.injEq, Prod.mk.injEq] at h
    exact ⟨h.1.symm, by rw [h.2]⟩

/-- The call of a task that is about to move on object `i`. -/
theorem Coherent.callOf (hs : Coherent objInv callInv pair s) {o : ο}
    (hk : s.tasks[k]? = some (c.map (Prod.mk i))) (hi : s.objects[i]? = some o) :
    ∀ d, c = some d → callInv o d := by
  intro d hd
  obtain ⟨o₁, ho₁, hinv⟩ := hs.call k i d (by rw [hk, hd]; rfl)
  rw [hi] at ho₁
  cases ho₁
  exact hinv

section

variable (ok : ε → ο → Prop) (hs : Coherent objInv callInv pair s) (h : ObjectStep move k i e s s')
  (hok : ∀ o, s.objects[i]? = some o → ok e o)
  (hself : ∀ u o c u' o' c', move e u o c u' o' c' → ok e o → objInv o →
    (∀ d, c = some d → callInv o d) → objInv o' ∧ ∀ d, c' = some d → callInv o' d)

include ok hs h hok hself

/-- What one move keeps, for the object, the call that moves and any other call on
the object, a step of the world keeps. `free` is what is known of the other calls on the
object when the move is made. -/
theorem Coherent.step_free (free : ε → τ → Prop)
    (hfree : ∀ (j : ℕ) (m : τ), j ≠ k → s.tasks[j]? = some (some (i, m)) → free e m)
    (hother : ∀ u o c u' o' c' m, move e u o c u' o' c' → ok e o → free e m → objInv o →
      (∀ d, c = some d → callInv o d ∧ pair d m ∧ pair m d) → callInv o m →
      callInv o' m ∧ ∀ d, c' = some d → pair d m ∧ pair m d) :
    Coherent objInv callInv pair s' := by
  obtain ⟨o, o', c, c', hk, hi, hmove, hobjs, htasks⟩ := h
  have hcall : ∀ d, c = some d → callInv o d := hs.callOf hk hi
  obtain ⟨hobj', hcall'⟩ := hself _ _ _ _ _ _ hmove (hok o hi) (hs.object i o hi) hcall
  have hi' : s'.objects[i]? = some o' := by
    rw [hobjs, List.getElem?_set_self' , hi]
    rfl
  -- another task that is in a call on object `i`
  have hothers : ∀ (j : ℕ) (m : τ), j ≠ k → s.tasks[j]? = some (some (i, m)) →
      callInv o' m ∧ ∀ d, c' = some d → pair d m ∧ pair m d := by
    intro j m hjk hm
    obtain ⟨o₁, ho₁, hinv⟩ := hs.call j i m hm
    rw [hi] at ho₁
    cases ho₁
    refine hother _ _ _ _ _ _ m hmove (hok o hi) (hfree j m hjk hm) (hs.object i o hi) ?_ hinv
    intro d hd
    have hkd : s.tasks[k]? = some (some (i, d)) := by rw [hk, hd]; rfl
    exact ⟨hcall d hd, hs.apart k j i d m hjk.symm hkd hm, hs.apart j k i m d hjk hm hkd⟩
  refine ⟨?_, ?_, ?_⟩
  · intro j p hj
    rw [hobjs] at hj
    rcases getElem?_set_cases hj with ⟨-, rfl⟩ | ⟨-, hp⟩
    · exact hobj'
    · exact hs.object j p hp
  · intro j n d hj
    rw [htasks] at hj
    rcases getElem?_set_cases hj with ⟨-, heq⟩ | ⟨hjk, hm⟩
    · obtain ⟨rfl, hd⟩ := map_mk_eq_some heq.symm
      exact ⟨o', hi', hcall' d hd⟩
    · by_cases hni : n = i
      · subst hni
        exact ⟨o', hi', (hothers j d hjk hm).1⟩
      · obtain ⟨p, hp, hinv⟩ := hs.call j n d hm
        refine ⟨p, ?_, hinv⟩
        rw [hobjs, List.getElem?_set_ne (fun h => hni h.symm)]
        exact hp
  · intro j n m d q hjn hj hn
    rw [htasks] at hj hn
    rcases getElem?_set_cases hj with ⟨rfl, heq⟩ | ⟨hjk, hm⟩
    · obtain ⟨rfl, hd⟩ := map_mk_eq_some heq.symm
      rcases getElem?_set_cases hn with ⟨rfl, -⟩ | ⟨hnk, hq⟩
      · exact absurd rfl hjn
      · exact ((hothers n q hnk hq).2 d hd).1
    · rcases getElem?_set_cases hn with ⟨rfl, heq⟩ | ⟨-, hq⟩
      · obtain ⟨rfl, hd⟩ := map_mk_eq_some heq.symm
        exact ((hothers j d hjk hm).2 q hd).2
      · exact hs.apart j n m d q hjn hm hq

/-- The same, with nothing known of the other calls. -/
theorem Coherent.step
    (hother : ∀ u o c u' o' c' m, move e u o c u' o' c' → ok e o → objInv o →
      (∀ d, c = some d → callInv o d ∧ pair d m ∧ pair m d) → callInv o m →
      callInv o' m ∧ ∀ d, c' = some d → pair d m ∧ pair m d) :
    Coherent objInv callInv pair s' := by
  refine hs.step_free ok h hok hself (fun _ _ => True) (fun _ _ _ _ => trivial) ?_
  intro u o c u' o' c' m hmove hok' _
  exact hother u o c u' o' c' m hmove hok'

end

/-- What a move leaves of its object, a step leaves of all of them. -/
theorem ObjectStep.map_objects {α : Type*} (f : ο → α)
    (hf : ∀ u o c u' o' c', move e u o c u' o' c' → f o' = f o) (h : ObjectStep move k i e s s') :
    s'.objects.map f = s.objects.map f := by
  obtain ⟨o, o', c, c', -, hi, hmove, hobjs, -⟩ := h
  have hsame : (s.objects.map f)[i]? = some (f o') := by
    rw [List.getElem?_map, hi, hf _ _ _ _ _ _ hmove]
    rfl
  obtain ⟨hlt, hget⟩ := List.getElem?_eq_some_iff.mp hsame
  rw [hobjs, List.map_set, ← hget]
  exact List.set_getElem_self hlt

/-! ## Weights -/

/-- The weight of a task: nothing when idle. -/
def taskWeight (w : τ → ℕ) : Option (ℕ × τ) → ℕ
  | none => 0
  | some (_, c) => w c

/-- The weight of a task on object `i`. -/
def taskWeightOn (w : τ → ℕ) (i : ℕ) : Option (ℕ × τ) → ℕ
  | none => 0
  | some (j, c) => if j = i then w c else 0

def callWeight (w : τ → ℕ) : Option τ → ℕ
  | none => 0
  | some c => w c

theorem taskWeight_map (w : τ → ℕ) (i : ℕ) (c : Option τ) :
    taskWeight w (c.map (Prod.mk i)) = callWeight w c := by
  cases c <;> rfl

theorem taskWeightOn_map (w : τ → ℕ) (i : ℕ) (c : Option τ) :
    taskWeightOn w i (c.map (Prod.mk i)) = callWeight w c := by
  cases c <;> simp [taskWeightOn, callWeight]

theorem taskWeightOn_map_ne (w : τ → ℕ) {j : ℕ} (h : i ≠ j) (c : Option τ) :
    taskWeightOn w j (c.map (Prod.mk i)) = 0 := by
  cases c <;> simp [taskWeightOn, h]

/-- The sums over objects and tasks change by what the move changes. -/
theorem ObjectStep.weights (wo : ο → ℕ) (wt : τ → ℕ) (h : ObjectStep move k i e s s') :
    ∃ o o' c c', s.tasks[k]? = some (c.map (Prod.mk i)) ∧ s.objects[i]? = some o ∧
      s'.objects[i]? = some o' ∧ move e s.shared o c s'.shared o' c' ∧
      (s'.objects.map wo).sum + wo o = (s.objects.map wo).sum + wo o' ∧
      (s'.tasks.map (taskWeight wt)).sum + callWeight wt c =
        (s.tasks.map (taskWeight wt)).sum + callWeight wt c' ∧
      (s'.tasks.map (taskWeightOn wt i)).sum + callWeight wt c =
        (s.tasks.map (taskWeightOn wt i)).sum + callWeight wt c' ∧
      ∀ j, j ≠ i → s'.objects[j]? = s.objects[j]? ∧
        (s'.tasks.map (taskWeightOn wt j)).sum = (s.tasks.map (taskWeightOn wt j)).sum := by
  obtain ⟨o, o', c, c', hk, hi, hmove, hobjs, htasks⟩ := h
  refine ⟨o, o', c, c', hk, hi, ?_, hmove, ?_, ?_, ?_, ?_⟩
  · rw [hobjs, List.getElem?_set_self', hi]
    rfl
  · rw [hobjs]
    exact sum_weight_set o' hi
  · rw [htasks, ← taskWeight_map wt i c, ← taskWeight_map wt i c']
    exact sum_weight_set _ hk
  · rw [htasks, ← taskWeightOn_map wt i c, ← taskWeightOn_map wt i c']
    exact sum_weight_set _ hk
  · intro j hj
    refine ⟨?_, ?_⟩
    · rw [hobjs, List.getElem?_set_ne (fun h => hj h.symm)]
    · have hsum := sum_weight_set (w := taskWeightOn wt j) (c'.map (Prod.mk i)) hk
      rw [taskWeightOn_map_ne wt (fun h => hj h.symm), taskWeightOn_map_ne wt (fun h => hj h.symm)]
        at hsum
      rw [htasks]
      exact hsum

end Tla

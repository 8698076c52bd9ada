import Kuasar.Template.PoolIds

/-!
# Template.DeletionSafety — no directory is deleted under a restore

A template directory must stay while a restore from it is in flight, while a
sandbox references it, and while it is exclusively leased. The pool chooses what
to delete under its locks, but deletes with no lock held, so a template that was
idle when it was chosen can be taken before its directory goes.

`deletion_safety`: as long as no step takes a template that some task has chosen to delete,
and no forced eviction chooses a referenced template, no directory of a protected
template is ever removed. `remove_by_id_races_peek` is a run in which the first
condition fails and a directory goes under a restore.

The invariant adds to the layers of `PoolIds` that what a task chose to delete is idle
and is not what another task took out: a template taken out of the pool stays out until
it is put back, so no later choice can find it.
-/

namespace Kuasar.PoolTasks

open TemplatePool Tla

/-- The template has an outstanding restore pin, a live reference, or is
exclusively leased. -/
def Protected (s : St) (t : PooledTemplate) : Prop :=
  s.shared.pool.inFlightRestores.count t.id > 0 ∨ s.shared.pool.inUseCount.count t.id > 0 ∨
    ∃ l ∈ s.tasks, ∃ u, l.owned = some u ∧ u.id = t.id

/-- No task is about to remove the directory of a protected template. -/
def Safe : StatePred St := fun s =>
  ∀ l ∈ s.tasks, ∀ t d, l.removes = some t → templateDir t = some d →
    ∀ u, templateDir u = some d → ¬ Protected s u

/-- The step takes no template that a task has chosen to delete, and evicts none
that is referenced. -/
def Undisturbed : ℕ × Effect → StatePred St
  | (_, .quiet), _ => True
  | (_, .takes id), s => ∀ l ∈ s.tasks, ∀ t ∈ l.selected, t.id ≠ id
  | (_, .evicts batch), s => ∀ t ∈ batch, s.shared.pool.inUseCount.count t.id = 0

/-! ## The outline -/

structure TaskInv (s : Shared) (l : Pc) : Prop where
  registered : ∀ t ∈ l.mentions, s.kinds t.id = some t.snapshotType
  unpinned : ∀ t ∈ l.selected, s.pool.idle t = true
  absent : ∀ t, l.owned = some t → Stranded s t.id ∨ t.id ∉ s.ids
  borrowed : ∀ t, l.borrowed = some t → t.snapshotType = .warmFork →
    s.pool.leaseMode = .shared ∨ Stranded s t.id
  returning : ∀ t, l.returning = some t → t.snapshotType = .warmFork ∧ s.pool.leaseMode ≠ .shared
  adding : ∀ t, l.adding = some t → s.pool.idle t = true ∧ t.id ∉ s.ids

/-- The layer between two tasks. -/
structure PairInv (s : Shared) (l m : Pc) : Prop where
  owned : ∀ t u, l.owned = some t → m.owned = some u → Stranded s t.id ∨ t.id ≠ u.id
  selected : ∀ t, l.owned = some t → ∀ u ∈ m.selected, t.id ≠ u.id
  adding : ∀ t, l.adding = some t → ∀ u ∈ m.mentions, u.id ≠ t.id

/-- The invariant. -/
abbrev Inv : StatePred St := Outline SharedInv TaskInv PairInv

section

variable {s : Shared} {l m : Pc}

theorem TaskInv.tracked (h : TaskInv s l) : Tracked s l :=
  ⟨h.registered, h.absent, h.borrowed, h.returning, h.adding⟩

theorem TaskInv.of_tracked (h : Tracked s l) (hun : ∀ t ∈ l.selected, s.pool.idle t = true) :
    TaskInv s l :=
  ⟨h.registered, hun, h.absent, h.borrowed, h.returning, h.adding⟩

theorem PairInv.split (h : PairInv s l m) : Apart s l m := ⟨h.owned, h.adding⟩

end

theorem init_inv (s : St) (h : Init s) : Inv s := by
  refine Outline.of_all h.1 (init_sharedInv h) ?_ ?_
  · constructor <;> simp
  · constructor <;> simp

/-! ## Stability -/

section

variable {e : Effect} {s s' : Shared} {l l' m n : Pc}

/-- The part of a task is kept by the steps of the others. -/
theorem SharedSpec.other (h : SharedSpec e s l s') (hl : TaskInv s l) (hm : TaskInv s m)
    (hlm : PairInv s l m) (hml : PairInv s m l)
    (hok : ∀ id, e = .takes id → ∀ t ∈ m.selected, t.id ≠ id) : TaskInv s' m := by
  refine .of_tracked (h.tracked_other hl.tracked hm.tracked hlm.split hml.split) ?_
  intro t ht
  rcases h.pin t (hm.unpinned t ht) with hidle | he
  · exact hidle
  · exact absurd rfl (hok t.id he t ht)

/-- What holds between two tasks is kept by the steps of a third. -/
theorem SharedSpec.others (h : SharedSpec e s l s') (hl : TaskInv s l) (hmn : PairInv s m n) :
    PairInv s' m n where
  owned := (h.apart_others hl.tracked hmn.split).owned
  selected := hmn.selected
  adding := hmn.adding

/-! ## The task that moves -/

theorem TaskSpec.selected_idle (ht : TaskSpec e s l s' l') (hl : TaskInv s l)
    (hev : ∀ batch, e = .evicts batch → ∀ t ∈ batch, s.pool.inUseCount.count t.id = 0)
    {t : PooledTemplate} (h : t ∈ l'.selected) : s.pool.idle t = true := by
  rcases ht.selected t h with hsel | ⟨-, hr, hc⟩
  · exact hl.unpinned t hsel
  · refine idle_iff.mpr ⟨hr, ?_⟩
    rcases hc with hc | ⟨batch, he, hb⟩
    · exact hc
    · exact Tally.count_eq_zero.mp (hev batch he t hb)

variable (ht : TaskSpec e s l s' l') (h : SharedSpec e s l s') (hl : TaskInv s l)

include ht h hl

theorem TaskSpec.self (hs : SharedInv s)
    (hev : ∀ batch, e = .evicts batch → ∀ t ∈ batch, s.pool.inUseCount.count t.id = 0) :
    TaskInv s' l' := by
  refine .of_tracked (ht.tracked h hl.tracked hs) ?_
  intro t hsel
  rcases h.pin t (ht.selected_idle hl hev hsel) with hidle | he
  · exact hidle
  · rw [(ht.taking t.id he).1] at hsel
    simp at hsel

theorem TaskSpec.pair_left (hm : TaskInv s m) (hlm : PairInv s l m)
    (hok : ∀ id, e = .takes id → ∀ t ∈ m.selected, t.id ≠ id) : PairInv s' l' m := by
  have hapart := ht.apart_left h hl.tracked hm.tracked hlm.split
  refine ⟨hapart.owned, ?_, hapart.adding⟩
  intro t hown u hu
  rcases ht.owned t hown with ho | ⟨he, -, -⟩
  · exact hlm.selected t ho u hu
  · exact fun htu => hok t.id he u hu htu.symm

theorem TaskSpec.pair_right (hm : TaskInv s m) (hml : PairInv s m l) : PairInv s' m l' := by
  have hapart := ht.apart_right h hl.tracked hm.tracked hml.split
  refine ⟨hapart.owned, ?_, hapart.adding⟩
  intro t hown u hu
  rcases ht.selected u hu with hs | ⟨hq, hr, -⟩
  · exact hml.selected t hown u hs
  · -- what is taken out is not in the queues the choice was made from
    intro htu
    rcases hm.absent t hown with hstr | habs
    · exact hstr.1 (htu ▸ hr)
    · exact habs (htu ▸ mem_ids hq)

end

/-! ## Safety -/

theorem step_inv (a : ℕ × Effect) (s s' : St) (hok : Undisturbed a s) (hn : next a s s')
    (hi : Inv s) : Inv s' := by
  obtain ⟨i, e⟩ := a
  obtain ⟨l, l', hl, hstep, hset⟩ := hn
  have h := hstep.sharedSpec
  have ht := hstep.taskSpec
  have htake : ∀ id, e = .takes id → ∀ (j : ℕ) (m : Pc), s.tasks[j]? = some m →
      ∀ t ∈ m.selected, t.id ≠ id := by
    rintro id rfl j m hm
    exact hok m (List.mem_of_getElem? hm)
  have hev : ∀ batch, e = .evicts batch → ∀ t ∈ batch,
      s.shared.pool.inUseCount.count t.id = 0 := by
    rintro batch rfl
    exact hok
  have hself := hi.each i l hl
  refine Outline.step hset (h.inv hi.shared hself.tracked) (ht.self h hself hi.shared hev) ?_ ?_ ?_
  · intro j m hj hm
    exact h.other hself (hi.each j m hm) (hi.apart i j l m hj.symm hl hm)
      (hi.apart j i m l hj hm hl) fun id he => htake id he j m hm
  · intro j m hj hm
    exact ⟨ht.pair_left h hself (hi.each j m hm) (hi.apart i j l m hj.symm hl hm)
        fun id he => htake id he j m hm,
      ht.pair_right h hself (hi.each j m hm) (hi.apart j i m l hj hm hl)⟩
  · intro j k m n hjk _ _ hm hn
    exact h.others hself (hi.apart j k m n hjk hm hn)

/-- What the next step removes was chosen, or is the task's own new template. -/
theorem removes_cases {l : Pc} {t : PooledTemplate} (h : l.removes = some t) :
    l.owned = none ∧ (t ∈ l.selected ∨ l.adding = some t) := by
  cases l with
  | sweep batch => cases batch <;> simp_all
  | _ => simp_all

theorem inv_safe (s : St) (hi : Inv s) : Safe s := by
  intro l hl t d hrem hd u hu
  rw [Protected, ← templateDir_id hd hu]
  obtain ⟨i, hli⟩ := List.getElem?_of_mem hl
  obtain ⟨hown, hwhy⟩ := removes_cases hrem
  have hidle : s.shared.pool.idle t = true := by
    rcases hwhy with hsel | hadd
    · exact (hi.each i l hli).unpinned t hsel
    · exact ((hi.each i l hli).adding t hadd).1
  obtain ⟨hr, hc⟩ := idle_iff.mp hidle
  rw [Tally.count_eq_zero.mpr hr, Tally.count_eq_zero.mpr hc]
  rintro (h | h | ⟨m, hm, v, hv, hvt⟩)
  · exact Nat.lt_irrefl 0 h
  · exact Nat.lt_irrefl 0 h
  · obtain ⟨j, hmj⟩ := List.getElem?_of_mem hm
    have hji : j ≠ i := by
      rintro rfl
      rw [hli] at hmj
      cases hmj
      exact absurd (hown.symm.trans hv) (by simp)
    rcases hwhy with hsel | hadd
    · exact (hi.apart j i m l hji hmj hli).selected v hv t hsel hvt
    · exact (hi.apart i j l m hji.symm hli hmj).adding t hadd v (mem_mentions_of_owned hv) hvt

/-- **Deletion safety.** In every run whose steps take no template that a task has
chosen to delete and evict none that is referenced, no task ever removes the
directory of a template with a restore pin, a reference or an exclusive lease. -/
theorem deletion_safety (s : St) (h : Reachable Init (Guarded Undisturbed next) s) : Safe s :=
  inv_safe s (h.guarded_invariant init_inv step_inv)

/-! ## A directory that goes under a restore -/

/-- An Environment template. -/
def bareVm : PooledTemplate := ⟨"t1", ⟨"k"⟩, .environment, 0, "", 0, [], [], [], none, none, []⟩

/-- A pool with `bareVm` in it and nothing in flight. -/
def onePool : TemplatePool :=
  ⟨Queues.empty.pushBack bareVm.key bareVm, .empty, .empty, .empty, 4, 4, 10, .shared, true⟩

def oneStore : Shared :=
  ⟨onePool, [["environment", "t1"]], fun id => if id = "t1" then some .environment else none⟩

def twoIdle : St := ⟨oneStore, [.idle, .idle]⟩

theorem twoIdle_init : Init twoIdle := by
  refine ⟨by simp [twoIdle], ?_, ?_⟩
  · decide
  · intro t ht
    have : t = bareVm := by simpa [twoIdle, oneStore, onePool, Shared.queued, Queues.all,
      Queues.pushBack, Queues.pushEntry, Queues.empty] using ht
    rw [this]
    rfl

/-- The first task ran the checks of `remove_by_id`: it is about to remove the
directory. -/
def removeChosen : St := ⟨oneStore, [.sweep [bareVm], .idle]⟩

theorem removeChosen_step : next (0, .quiet) twoIdle removeChosen :=
  ⟨.idle, .sweep [bareVm], rfl, @Step.callRemove oneStore "t1" .environment bareVm rfl, rfl⟩

theorem deletion_safety_removeChosen :
    removeChosen.tasks[0]? = some (.sweep [bareVm]) ∧ Safe removeChosen :=
  ⟨rfl, deletion_safety removeChosen
    (.step (.init twoIdle_init) ⟨(0, .quiet), trivial, removeChosen_step⟩)⟩

/-- Then the second task pins the template for a restore. -/
def peeked : St :=
  ⟨{ oneStore with pool := { onePool with inFlightRestores := Tally.empty.incr "t1" } },
    [.sweep [bareVm], .lease bareVm false]⟩

theorem peeked_reachable : Reachable Init (AnyStep next) peeked := by
  have h₁ : Reachable Init (AnyStep next) removeChosen :=
    (Reachable.init twoIdle_init).anyStep _ removeChosen_step
  have h₂ : Reachable Init (AnyStep next)
      ⟨oneStore, [.sweep [bareVm], .take (.peekLatestForRestore ⟨"k"⟩)]⟩ :=
    h₁.anyStep (1, .quiet) ⟨.idle, _, rfl, .callTake _, rfl⟩
  exact h₂.anyStep (1, .takes "t1") ⟨_, _, rfl, .takeSome (t := bareVm) rfl, rfl⟩

/-- `remove_by_id` checks that no restore is in flight, a restore pins the
template, and the directory is removed under it. -/
theorem remove_by_id_races_peek :
    ∃ s s' : St, ∃ a, Reachable Init (AnyStep next) s ∧ next a s s' ∧
      ∃ t d, templateDir t = some d ∧ d ∈ s.shared.dirs ∧ d ∉ s'.shared.dirs ∧
        s.shared.pool.inFlightRestores.count t.id = 1 ∧ ¬ Safe s := by
  refine ⟨peeked, ⟨peeked.shared.removeDir ["environment", "t1"],
      [.sweepDequeue bareVm [], .lease bareVm false]⟩, (0, .quiet), peeked_reachable,
    ⟨_, _, rfl, .sweepRemoved (t := bareVm) rfl, rfl⟩, bareVm, _, rfl, ?_, ?_, rfl, ?_⟩
  · decide
  · decide
  · intro hsafe
    exact hsafe (.sweep [bareVm]) (by simp [peeked]) bareVm _ rfl rfl bareVm rfl
      (Or.inl (by decide))

end Kuasar.PoolTasks

import Kuasar.Template.Add
import Kuasar.Template.Consumption
import Kuasar.Template.DeletionSafety

/-!
# Template.PoolLimits — the watermark and the depth of a key

`add` makes room before it files a template: it evicts one at the water level and one of a
key that is full. Its checks, the save and the push are separate sections, the depth is
that of the whole queue of a key whatever kinds are in it, and a template that is put back
is filed with no check at all.

So the limits hold in the runs in which a key has templates of one kind, adds come one at
a time, and what is put back finds room and no add under way (`within_limits`). Two adds
that overlap each see the room that is left for one (`adds_overfill`).
-/

namespace Kuasar.PoolLimits

open TemplatePool Tla PoolTasks

/-- A step of one task, and where it takes the task. -/
structure Move where
  task : ℕ
  effect : Effect
  goal : Pc

/-- The steps. -/
def next (m : Move) : Action St :=
  TaskStep (fun g l g' l' => Step m.effect g l g' l' ∧ l' = m.goal) m.task

theorem next_of_step {s : St} {i : ℕ} {e : Effect} {g : Shared} {l l' : Pc}
    (hi : s.tasks[i]? = some l) (h : Step e s.shared l g l') :
    next ⟨i, e, l'⟩ s ⟨g, s.tasks.set i l'⟩ :=
  TaskStep.of_step hi ⟨h, rfl⟩

/-- The pool has at most as many templates as the watermark, and of each key and kind at
most as many as the limit of the kind. -/
structure WithinLimits (p : TemplatePool) : Prop where
  total : p.totalDepth ≤ p.gcWatermark
  perKey : ∀ key kind max, p.kindMaxPerKey kind = some max →
    (p.available.queue key).countP (·.snapshotType = kind) ≤ max

/-- One more template fits the water level. -/
def LevelRoom (p : TemplatePool) : Prop := p.totalDepth < p.gcWatermark

/-- One more template fits the key of `t`. -/
def DepthRoom (p : TemplatePool) (t : PooledTemplate) : Prop :=
  ∀ max, p.kindMaxPerKey t.snapshotType = some max → (p.available.queue t.key).length < max

/-- No task is in an `add`. -/
def NoAdd (s : St) : Prop := ∀ l ∈ s.tasks, l.adding = none

section

variable (kindOf : TemplateKey → SnapshotType)

/-- A pool that keeps its limits, which are not zero, and has templates of one kind under
each key. -/
structure Stocked (p : TemplatePool) : Prop where
  filed : Filed kindOf p
  positive : ∀ kind max, p.kindMaxPerKey kind = some max → 0 < max
  total : p.totalDepth ≤ p.gcWatermark
  depth : ∀ key max, p.kindMaxPerKey (kindOf key) = some max →
    (p.available.queue key).length ≤ max

/-- Any number of idle tasks over such a pool. -/
def Init : StatePred St := fun s =>
  (∀ l ∈ s.tasks, l = .idle) ∧ Stocked kindOf s.shared.pool

/-- An add starts while no other is under way, with a template of the kind its key has; a
template is put back while no add is under way, and there is room for it. -/
structure Orderly (m : Move) (s : St) : Prop where
  add : ∀ new, s.tasks[m.task]? = some .idle → m.goal = .addLevel new →
    new.snapshotType = kindOf new.key ∧ NoAdd s
  putBack : ∀ l t, s.tasks[m.task]? = some l → m.goal = .idle → l.pushes = some t →
    l.adding = none → NoAdd s ∧ LevelRoom s.shared.pool ∧ DepthRoom s.shared.pool t

/-! ## The outline -/

/-- The room that an `add` has made so far. What it chose to evict may be dropped by
another task first. -/
def Ready (s : Shared) : Pc → Prop
  | .addEvict _ old .waterLevel | .addDequeue _ old .waterLevel =>
    old ∈ s.queued ∨ LevelRoom s.pool
  | .addDepth _ => LevelRoom s.pool
  | .addEvict new old .maxPerKey | .addDequeue new old .maxPerKey =>
    LevelRoom s.pool ∧ (old ∈ s.pool.available.queue new.key ∨ DepthRoom s.pool new)
  | .addSave new | .addPush new => LevelRoom s.pool ∧ DepthRoom s.pool new
  | _ => True

structure TaskInv (s : Shared) (l : Pc) : Prop where
  kinds : ∀ t ∈ l.mentions, t.snapshotType = kindOf t.key
  ready : Ready s l

/-- The layer between two tasks: one of them is not in an `add`. -/
def PairInv (_ : Shared) (l m : Pc) : Prop := l.adding = none ∨ m.adding = none

/-- The invariant. -/
abbrev Inv : StatePred St :=
  Outline (fun s => Stocked kindOf s.pool) (TaskInv kindOf) PairInv

end

variable {kindOf : TemplateKey → SnapshotType} {p p' : TemplatePool} {s s' : Shared}
  {e : Effect} {l l' : Pc} {t new old : PooledTemplate}

theorem Stocked.within (h : Stocked kindOf p) : WithinLimits p := by
  refine ⟨h.total, ?_⟩
  intro key kind max hmax
  by_cases hkind : kind = kindOf key
  · subst hkind
    exact List.countP_le_length.trans (h.depth key max hmax)
  · -- the key has templates of another kind
    have hnone : (p.available.queue key).countP (·.snapshotType = kind) = 0 := by
      rw [List.countP_eq_zero]
      intro t ht heq
      exact hkind ((of_decide_eq_true heq).symm.trans (h.filed key t ht).2)
    omega

theorem init_inv (s : St) (h : Init kindOf s) : Inv kindOf s :=
  Outline.of_all h.1 h.2 ⟨by simp, trivial⟩ (Or.inl rfl)

/-! ## Taking templates out -/

/-- The limits are the same, and the queues have only lost elements. -/
structure Less (p p' : TemplatePool) : Prop where
  queues : p.available.Shrinks p'.available
  watermark : p'.gcWatermark = p.gcWatermark
  maxPerKey : ∀ kind, p'.kindMaxPerKey kind = p.kindMaxPerKey kind

theorem Less.length_le (h : Less p p') (key : TemplateKey) :
    (p'.available.queue key).length ≤ (p.available.queue key).length :=
  (h.queues.queue key).length_le

theorem Less.total_le (h : Less p p') : p'.totalDepth ≤ p.totalDepth := h.queues.size_le

theorem Less.stocked (h : Less p p') (hp : Stocked kindOf p) : Stocked kindOf p' where
  filed := hp.filed.shrinks h.queues
  positive kind max hmax := hp.positive kind max (by rw [← h.maxPerKey, hmax])
  total := by
    have := h.total_le
    have := hp.total
    rw [h.watermark]
    omega
  depth key max hmax := by
    rw [h.maxPerKey] at hmax
    exact (h.length_le key).trans (hp.depth key max hmax)

theorem Less.levelRoom (h : Less p p') (hp : LevelRoom p) : LevelRoom p' := by
  have := h.total_le
  unfold LevelRoom at *
  rw [h.watermark]
  omega

theorem Less.depthRoom (h : Less p p') (hp : DepthRoom p t) : DepthRoom p' t := by
  intro max hmax
  rw [h.maxPerKey] at hmax
  have := h.length_le t.key
  have := hp max hmax
  omega

/-- A template that is gone has left room at the water level. -/
theorem Less.levelRoom_or (h : Less p p') (hp : Stocked kindOf p)
    (hold : old ∈ p.available.all ∨ LevelRoom p) : old ∈ p'.available.all ∨ LevelRoom p' := by
  rcases hold with hmem | hroom
  · by_cases hgone : old ∈ p'.available.all
    · exact Or.inl hgone
    · have := h.queues.size_lt hmem hgone
      have := hp.total
      refine Or.inr ?_
      unfold LevelRoom totalDepth at *
      rw [h.watermark]
      omega
  · exact Or.inr (h.levelRoom hroom)

/-- A template that is gone has left room under its key. -/
theorem Less.depthRoom_or (h : Less p p') (hp : Stocked kindOf p)
    (hkind : new.snapshotType = kindOf new.key)
    (hold : old ∈ p.available.queue new.key ∨ DepthRoom p new) :
    old ∈ p'.available.queue new.key ∨ DepthRoom p' new := by
  rcases hold with hmem | hroom
  · by_cases hgone : old ∈ p'.available.queue new.key
    · exact Or.inl hgone
    · right
      intro max hmax
      rw [h.maxPerKey, hkind] at hmax
      have hle := hp.depth new.key max hmax
      have hlt : (p'.available.queue new.key).length < (p.available.queue new.key).length := by
        by_contra hlen
        have heq := (h.queues.queue new.key).eq_of_length_le (Nat.le_of_not_lt hlen)
        exact hgone (heq ▸ hmem)
      omega
  · exact Or.inr (h.depthRoom hroom)

/-- What an `add` has found or made stays while templates are taken out. -/
theorem Less.ready (h : Less s.pool s'.pool) (hs : Stocked kindOf s.pool)
    (hl : TaskInv kindOf s l) : Ready s' l := by
  have hready := hl.ready
  cases l with
  | addEvict new old stage | addDequeue new old stage =>
    cases stage with
    | waterLevel => exact h.levelRoom_or hs hready
    | maxPerKey =>
      exact ⟨h.levelRoom hready.1, h.depthRoom_or hs (hl.kinds new (by simp)) hready.2⟩
  | addDepth new => exact h.levelRoom hready
  | addSave new | addPush new => exact ⟨h.levelRoom hready.1, h.depthRoom hready.2⟩
  | _ => trivial

/-! ## Filing a template -/

theorem Stocked.pushBack (hp : Stocked kindOf p) (hkind : t.snapshotType = kindOf t.key)
    (hlevel : LevelRoom p) (hdepth : DepthRoom p t) : Stocked kindOf (p.pushBack t) where
  filed := hp.filed.pushBack hkind
  positive := hp.positive
  total := by
    have hsize : (p.pushBack t).totalDepth = p.totalDepth + 1 := Queues.size_pushBack
    rw [hsize]
    exact hlevel
  depth key max hmax := by
    rw [TemplatePool.pushBack, Queues.queue_pushBack]
    split
    · rename_i hkey
      rw [hkey, ← hkind] at hmax
      rw [List.length_append, List.length_singleton]
      exact hdepth max hmax
    · exact hp.depth key max hmax

/-! ## The task that moves -/

theorem Ready.of_adding_none (h : l.adding = none) : Ready s l := by
  cases l with
  | addEvict | addDequeue | addDepth | addSave | addPush => simp at h
  | _ => trivial

theorem Stocked.depthRoom (hp : Stocked kindOf p) (h : p.depthEviction new = none) :
    DepthRoom p new := by
  intro max hmax
  have := hp.positive new.snapshotType max hmax
  by_contra hfull
  simp only [depthEviction, hmax, if_pos (Nat.le_of_not_lt hfull), Option.map_eq_none_iff,
    List.head?_eq_none_iff] at h
  rw [h, List.length_nil] at hfull
  omega

/-- Each check of an `add` leaves the room that the next section counts on. -/
theorem ready_of_step (h : Step e s l s' l') (hs : Stocked kindOf s.pool)
    (hl : TaskInv kindOf s l) : Ready s' l' := by
  have hready := hl.ready
  cases h with
  | rehash h => exact Less.ready ⟨h.shrinks, rfl, fun _ => rfl⟩ hs hl
  | addBelow h => exact h
  | addPickSome h => exact Or.inl (oldestCandidate_some h).1
  | @addEvicted _ new old stage =>
    cases stage with
    | waterLevel | maxPerKey => exact hready
  | @addDequeueLevel _ new old =>
    have hless : Less s.pool (s.pool.dequeue old.id) :=
      ⟨Queues.shrinks_retain _, rfl, fun _ => rfl⟩
    refine (hless.levelRoom_or hs hready).resolve_left ?_
    rw [dequeue, Queues.all_retain]
    simp
  | @addDequeueDepth _ new old =>
    have hless : Less s.pool (s.pool.dequeueFrom new.key old.id) :=
      ⟨Queues.shrinks_adjust fun _ => List.filter_sublist, rfl, fun _ => rfl⟩
    have hkind : new.snapshotType = kindOf new.key := hl.kinds new (by simp)
    refine ⟨hless.levelRoom hready.1, (hless.depthRoom_or hs hkind hready.2).resolve_left ?_⟩
    rw [dequeueFrom, Queues.queue_adjust rfl, if_pos rfl]
    simp
  | addDepthBelow h => exact ⟨hready, hs.depthRoom h⟩
  | addDepthEvict h => exact ⟨hready, Or.inl (depthEviction_mem h)⟩
  | addSaved => exact hready
  | takeSome =>
    split <;> trivial
  | leaseEnd | leaseFailRef | callDeref =>
    unfold afterGive
    split <;> trivial
  | _ => trivial

section

variable {m : Move} {s s' : St}

variable (hok : Orderly kindOf m s) (hi : s.tasks[m.task]? = some l)

include hok hi

/-- What a task files has room: its own checks have made it, or it is put back orderly. -/
theorem Orderly.room (hgoal : m.goal = .idle) (hpush : l.pushes = some t)
    (hl : TaskInv kindOf s.shared l) : LevelRoom s.shared.pool ∧ DepthRoom s.shared.pool t := by
  cases l with
  | addPush new =>
    cases hpush
    exact hl.ready
  | putBack u | releasePush u => exact (hok.putBack _ t hi hgoal hpush rfl).2
  | _ => simp at hpush

/-- No other task is in an `add` while a template is filed. -/
theorem Orderly.alone (hs : Inv kindOf s) (hgoal : m.goal = .idle) (hpush : l.pushes = some t)
    {j : ℕ} {n : Pc} (hj : j ≠ m.task) (hn : s.tasks[j]? = some n) : n.adding = none := by
  by_cases hadd : l.adding = none
  · exact (hok.putBack l t hi hgoal hpush hadd).1 n (List.mem_of_getElem? hn)
  · exact (hs.apart m.task j l n hj.symm hi hn).resolve_left hadd

/-- An `add` starts alone. -/
theorem Orderly.pair (hs : Inv kindOf s) (hstep : Step e s.shared l s'.shared m.goal) {j : ℕ}
    {n : Pc} (hj : j ≠ m.task) (hn : s.tasks[j]? = some n) :
    m.goal.adding = none ∨ n.adding = none := by
  rcases hadd : m.goal.adding with _ | new
  · exact Or.inl rfl
  · right
    rcases hstep.adding_cases hadd with hold | ⟨rfl, hgoal⟩
    · refine (hs.apart m.task j l n hj.symm hi hn).resolve_left ?_
      rw [hold]
      exact Option.some_ne_none new
    · exact (hok.add new hi hgoal).2 n (List.mem_of_getElem? hn)

end

theorem step_inv (m : Move) (s s' : St) (hok : Orderly kindOf m s) (h : next m s s')
    (hs : Inv kindOf s) : Inv kindOf s' := by
  obtain ⟨l, _, hi, ⟨hstep, rfl⟩, hset⟩ := h
  have hl := hs.each m.task l hi
  obtain ⟨hwatermark, hmax⟩ := hstep.limits
  have hkinds : ∀ t ∈ m.goal.mentions, t.snapshotType = kindOf t.key := by
    refine hstep.mentions_all (fun t ht => hs.shared.filed.kind_of_mem ht) hl.kinds ?_
    rintro new rfl hgoal
    exact (hok.add new hi hgoal).1
  have hself : TaskInv kindOf s'.shared m.goal := ⟨hkinds, ready_of_step hstep hs.shared hl⟩
  have hpair : ∀ (j : ℕ) (n : Pc), j ≠ m.task → s.tasks[j]? = some n →
      PairInv s'.shared m.goal n ∧ PairInv s'.shared n m.goal := fun j n hj hn =>
    ⟨hok.pair hi hs hstep hj hn, (hok.pair hi hs hstep hj hn).symm⟩
  rcases hstep.queues with hshrinks | ⟨t, hpush, hgoal, hpool⟩
  · have hless : Less s.shared.pool s'.shared.pool := ⟨hshrinks, hwatermark, hmax⟩
    refine Outline.step hset (hless.stocked hs.shared) hself ?_ hpair ?_
    · intro j n _ hn
      have htask := hs.each j n hn
      exact ⟨htask.kinds, hless.ready hs.shared htask⟩
    · exact fun j k n n' hjk _ _ hn hn' => hs.apart j k n n' hjk hn hn'
  · obtain ⟨hlevel, hdepth⟩ := hok.room hi hgoal hpush hl
    have hkind := hl.kinds t (mem_mentions_of_pushes hpush)
    refine Outline.step hset ?_ hself ?_ hpair ?_
    · rw [hpool]
      exact hs.shared.pushBack hkind hlevel hdepth
    · intro j n hj hn
      exact ⟨(hs.each j n hn).kinds, .of_adding_none (hok.alone hi hs hgoal hpush hj hn)⟩
    · exact fun j k n n' hjk _ _ hn hn' => hs.apart j k n n' hjk hn hn'

/-- **The limits of the pool.** In every interleaving in which a key has templates of one kind,
adds come one at a time and what is put back finds room, the pool is within its limits
all the time. -/
theorem within_limits (kindOf : TemplateKey → SnapshotType) (s : St)
    (h : Reachable (Init kindOf) (Guarded (Orderly kindOf) next) s) :
    WithinLimits s.shared.pool :=
  (h.guarded_invariant init_inv step_inv).shared.within

/-! ## More templates than the limit -/

open PoolAdd (template Store add)

/-- A pool with these templates that keeps one Environment and three WarmFork templates of
a key. -/
def smallPool (ts : List PooledTemplate) : TemplatePool :=
  ts.foldl TemplatePool.pushBack (.new 1 3 10 .shared true)

def twoTasks : St := ⟨⟨smallPool [], [], fun _ => none⟩, [.idle, .idle]⟩

theorem twoTasks_init : Init (fun _ => .environment) twoTasks := by
  refine ⟨by simp [twoTasks], ?_, ?_, ?_, ?_⟩
  · intro key t ht
    cases ht
  · intro kind max hmax
    cases kind with
    | environment | warmFork =>
      cases hmax
      decide
    | continuation => cases hmax
  · decide
  · intro key max _
    exact Nat.zero_le max

/-- An Environment template. -/
def env1 : PooledTemplate := template "e1" "k" .environment 1

/-- Another one of the same key. -/
def env2 : PooledTemplate := template "e2" "k" .environment 2

theorem orderly_of_goal {m : Move} {s : St} (hadd : ∀ new, m.goal ≠ .addLevel new)
    (hidle : m.goal ≠ .idle) : Orderly kindOf m s :=
  ⟨fun new _ h => absurd h (hadd new), fun _ _ _ h => absurd h hidle⟩

/-- An add has run its checks. -/
theorem checked_reachable : Reachable (Init fun _ => .environment)
    (Guarded (Orderly fun _ => .environment) next)
    ⟨twoTasks.shared.register env1 ["environment", "e1"], [.addSave env1, .idle]⟩ := by
  have h₀ : Reachable (Init fun _ => .environment)
    (Guarded (Orderly fun _ => .environment) next) twoTasks := .init twoTasks_init
  have horder : Orderly (fun _ => .environment) ⟨0, .quiet, .addLevel env1⟩ twoTasks := by
    refine ⟨fun new _ h => ?_, fun _ _ _ h => by cases h⟩
    cases h
    exact ⟨rfl, by simp [NoAdd, twoTasks]⟩
  have h₁ := h₀.step ⟨_, horder, next_of_step rfl (.callAdd rfl rfl rfl)⟩
  have h₂ := h₁.step ⟨⟨0, .quiet, .addDepth env1⟩, orderly_of_goal (by simp) (by simp),
    next_of_step rfl (.addBelow (by decide))⟩
  have h₃ := h₂.step ⟨⟨0, .quiet, .addSave env1⟩, orderly_of_goal (by simp) (by simp),
    next_of_step rfl (.addDepthBelow rfl)⟩
  exact h₃

/-- The add files its template, and the key is full. -/
theorem within_limits_added :
    ∃ s : St, Reachable (Init fun _ => .environment)
        (Guarded (Orderly fun _ => .environment) next) s ∧
      s.tasks = [.idle, .idle] ∧ s.shared.pool.available.queue ⟨"k"⟩ = [env1] ∧
      WithinLimits s.shared.pool := by
  have h₁ := checked_reachable.step ⟨⟨0, .quiet, .addPush env1⟩, orderly_of_goal nofun nofun,
    next_of_step rfl .addSaved⟩
  have h₂ := h₁.step ⟨⟨0, .quiet, .idle⟩, ⟨nofun, by rintro l t ⟨⟩ - - ⟨⟩⟩,
    next_of_step rfl .addPush⟩
  exact ⟨_, h₂, rfl, rfl, within_limits _ _ h₂⟩

/-- The key of the two is full of WarmFork templates. -/
def forks : Store where
  pool := smallPool [template "w1" "k" .warmFork 0, template "w2" "k" .warmFork 0,
    template "w3" "k" .warmFork 0]
  dirs := [["warmfork", "w1"], ["warmfork", "w2"], ["warmfork", "w3"]]

theorem forks_within : WithinLimits forks.pool := by
  refine ⟨by decide, ?_⟩
  intro key kind max hmax
  by_cases hkey : key = ⟨"k"⟩
  · subst hkey
    cases kind with
    | environment | warmFork =>
      cases hmax
      decide
    | continuation => cases hmax
  · have hnone : forks.pool.available.queue key = [] := by
      have hkey' : ⟨"k"⟩ ≠ key := fun h => hkey h.symm
      rw [forks, smallPool, foldl_pushBack_queue]
      simp [template, hkey', TemplatePool.new, Queues.empty, Queues.queue, Queues.queueEntry]
    rw [hnone]
    exact Nat.zero_le max

/-- Two Environment templates of a key that may have one: two adds run their checks before
either files its template; or one add after the other evicts a WarmFork template of the
key. -/
theorem adds_overfill :
    (∃ s : St, Reachable (Init fun _ => .environment) (AnyStep next) s ∧
      s.tasks = [.idle, .idle] ∧ s.shared.pool.available.queue ⟨"k"⟩ = [env1, env2] ∧
      ¬ WithinLimits s.shared.pool) ∧
    WithinLimits forks.pool ∧ (add {} env1 forks).2 = none ∧
      (add {} env2 (add {} env1 forks).1).2 = none ∧
      ¬ WithinLimits (add {} env2 (add {} env1 forks).1).1.pool := by
  have hover : ∀ p : TemplatePool, p.kindMaxPerKey .environment = some 1 →
      (p.available.queue ⟨"k"⟩).countP (·.snapshotType = .environment) = 2 → ¬ WithinLimits p := by
    intro p hmax hcount hp
    have := hp.perKey ⟨"k"⟩ .environment 1 hmax
    omega
  refine ⟨?_, forks_within, rfl, rfl, hover _ rfl rfl⟩
  -- the other add runs its checks, too
  have h₃ := checked_reachable.unguarded
  have h₄ := h₃.anyStep ⟨1, .quiet, .addLevel env2⟩
    (next_of_step rfl (.callAdd rfl rfl rfl))
  have h₅ := h₄.anyStep ⟨1, .quiet, .addDepth env2⟩
    (next_of_step rfl (.addBelow (by decide)))
  have h₆ := h₅.anyStep ⟨1, .quiet, .addSave env2⟩
    (next_of_step rfl (.addDepthBelow rfl))
  -- and then file their templates
  have h₇ := h₆.anyStep ⟨0, .quiet, .addPush env1⟩ (next_of_step rfl .addSaved)
  have h₈ := h₇.anyStep ⟨0, .quiet, .idle⟩ (next_of_step rfl .addPush)
  have h₉ := h₈.anyStep ⟨1, .quiet, .addPush env2⟩ (next_of_step rfl .addSaved)
  have h₁₀ := h₉.anyStep ⟨1, .quiet, .idle⟩ (next_of_step rfl .addPush)
  exact ⟨_, h₁₀, rfl, rfl, hover _ rfl rfl⟩

end Kuasar.PoolLimits

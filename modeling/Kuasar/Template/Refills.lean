import Kuasar.Template.PoolTasks

/-!
# Template.Refills — keeping the pool at its depth

The maintenance task and the pool-refill requests run one piece of code: read the depth of
the environment key, read how many refills of it are in flight, and start as many as are
missing to the target. Each read and each start takes a lock of its own. A refill is a task
that makes a template and adds it to the pool, or fails, and then counts itself out.

`refills_within_target`: a start keeps the depth and the refills in flight within the target
if, since its request read the depth, no template was filed under the key and, since it read
the count, no other request started a refill. Whatever the interleaving, the count is the
number of refills that run. `two_requests_overshoot` is a run in which two requests start
the same refill.
-/

namespace Kuasar

namespace TemplatePool

variable (p : TemplatePool)

/-- The number of templates that are available under `key`. -/
def depth (key : TemplateKey) : ℕ := (p.available.queue key).length

/-- A refill of `key` is announced. -/
def beginRefill (key : TemplateKey) : TemplatePool :=
  { p with inFlightRefills := p.inFlightRefills.incr key }

/-- A refill of `key` has finished, successfully or not. -/
def endRefill (key : TemplateKey) : TemplatePool :=
  { p with inFlightRefills := p.inFlightRefills.decr key }

/-- The number of refills of `key` in progress. -/
def inFlightCountForKey (key : TemplateKey) : ℕ := p.inFlightRefills.count key

theorem inFlightCountForKey_beginRefill (key : TemplateKey) :
    (p.beginRefill key).inFlightCountForKey key = p.inFlightCountForKey key + 1 := by
  simp [inFlightCountForKey, beginRefill, Tally.count_incr]

theorem inFlightCountForKey_endRefill (key : TemplateKey) :
    (p.endRefill key).inFlightCountForKey key = p.inFlightCountForKey key - 1 := by
  simp [inFlightCountForKey, endRefill, Tally.count_decr]

end TemplatePool

namespace Refills

open TemplatePool Tla PoolTasks

/-- Where a task stands. A task that is idle may serve a request for a target depth or do
any other work on the pool; the tasks from `creating` to `ended` are refills. -/
inductive Pc where
  | idle
  | depthRead (target current : ℕ)
  | starting (target left : ℕ)
  | work (l : PoolTasks.Pc)
  | creating
  | adding (l : PoolTasks.Pc)
  | ending
  | ended

/-- One step of one task. Starting a refill is a step of its own, as it makes a new task. -/
inductive Step (key : TemplateKey) : Effect → Shared → Pc → Shared → Pc → Prop where
  -- start_maintenance_task, handle_pool_refill
  | readDepth {s} (target : ℕ) : Step key .quiet s .idle s (.depthRead target (s.pool.depth key))
  | readInFlight {s target current} :
      Step key .quiet s (.depthRead target current) s
        (.starting target (target - (current + s.pool.inFlightCountForKey key)))
  | started {s target} : Step key .quiet s (.starting target 0) s .idle
  -- gc_if_needed after the starts, and whatever else works on the pool
  | beginWork {e s s' l} (h : PoolTasks.Step e s .idle s' l) : Step key e s .idle s' (.work l)
  | work {e s s' l l'} (h : PoolTasks.Step e s l s' l') : Step key e s (.work l) s' (.work l')
  | endWork {s} : Step key .quiet s (.work .idle) s .idle
  -- create_template_worker: the template is made, or not, and added under the key
  | created {s s' new} (hkey : new.key = key)
      (h : PoolTasks.Step .quiet s .idle s' (.addLevel new)) :
      Step key .quiet s .creating s' (.adding (.addLevel new))
  | notCreated {s} : Step key .quiet s .creating s .ending
  | add {e s s' l l'} (h : PoolTasks.Step e s l s' l')
      (hl : l.adding ≠ none) : Step key e s (.adding l) s' (.adding l')
  | added {s} : Step key .quiet s (.adding .idle) s .ending
  | endRefill {s} : Step key .quiet s .ending { s with pool := s.pool.endRefill key } .ended

/-- The pool and the tasks. -/
abbrev St := Sys Shared Pc

/-- Task `i` takes a step, or starts a refill. -/
inductive Label where
  | task (i : ℕ) (e : Effect)
  | start (i : ℕ)

/-- The steps. A refill is announced before its task is spawned. -/
def next (key : TemplateKey) : Label → Action St
  | .task i e => TaskStep (Step key e) i
  | .start i => fun s s' => ∃ target left,
      s.tasks[i]? = some (.starting target (left + 1)) ∧
      s' = ⟨{ s.shared with pool := s.shared.pool.beginRefill key },
        s.tasks.set i (.starting target left) ++ [.creating]⟩

/-- No refill of the key runs, and none is counted. -/
def Init (key : TemplateKey) : StatePred St := fun s =>
  (∀ l ∈ s.tasks, l = .idle) ∧ s.shared.pool.inFlightCountForKey key = 0

namespace Pc

/-- The template that the next step files in the pool. -/
def pushes : Pc → Option PooledTemplate
  | .work l => l.pushes
  | .adding l => l.pushes
  | _ => none

/-- The task is a refill that has not counted itself out. -/
def running : Pc → Bool
  | .creating => true
  | .adding _ => true
  | .ending => true
  | _ => false

/-- The task has read the depth for its request. -/
def Reading : Pc → Prop
  | .depthRead _ _ => True
  | _ => False

def Starting : Pc → Prop
  | .starting _ (_ + 1) => True
  | _ => False

end Pc

/-- A template is filed under the key while no other task has read the depth for a request
or has refills left to start; a refill is started while no other task has refills left. -/
def Orderly (key : TemplateKey) : Label → StatePred St
  | .task i _, s => ∀ l t, s.tasks[i]? = some l → l.pushes = some t → t.key = key →
      ∀ (j : ℕ) (m : Pc), j ≠ i → s.tasks[j]? = some m → ¬ m.Reading ∧ ¬ m.Starting
  | .start i, s => ∀ (j : ℕ) (m : Pc), j ≠ i → s.tasks[j]? = some m → ¬ m.Starting

/-! ## What a step does to the two numbers -/

variable {key : TemplateKey} {e : Effect} {s s' : Shared} {l l' m : Pc}

theorem inFlightRefills_eq {l l' : PoolTasks.Pc} (h : PoolTasks.Step e s l s' l') :
    s'.pool.inFlightRefills = s.pool.inFlightRefills := by
  cases h with
  | takeSome h =>
    obtain ⟨-, htaken⟩ := take_spec h
    cases htaken <;> rfl
  | _ => rfl

/-- The depth rises only if a template is filed under the key. -/
theorem depth_le {l l' : PoolTasks.Pc} (key : TemplateKey)
    (h : PoolTasks.Step e s l s' l') :
    s'.pool.depth key ≤ s.pool.depth key ∨ ∃ t, l.pushes = some t ∧ t.key = key := by
  rcases h.queues with hshrinks | ⟨t, ht, -, hpool⟩
  · exact Or.inl (hshrinks.queue key).length_le
  · by_cases hkey : t.key = key
    · exact Or.inr ⟨t, ht, hkey⟩
    · left
      rw [hpool, depth, depth, pushBack, Queues.queue_pushBack, if_neg (Ne.symm hkey)]

/-- What a step of a task does to the depth and to the count. -/
structure Counts (key : TemplateKey) (s : Shared) (l : Pc) (s' : Shared) : Prop where
  depth : s'.pool.depth key ≤ s.pool.depth key ∨ ∃ t, l.pushes = some t ∧ t.key = key
  inFlight : s'.pool.inFlightCountForKey key ≤ s.pool.inFlightCountForKey key

theorem Counts.of_pool {l : PoolTasks.Pc} {l' : PoolTasks.Pc} (h : PoolTasks.Step e s l s' l')
    (hm : l.pushes = none ∨ m.pushes = l.pushes) : Counts key s m s' := by
  refine ⟨?_, ?_⟩
  · rcases depth_le key h with hle | ⟨t, ht, hkey⟩
    · exact Or.inl hle
    · rcases hm with hnone | hm
      · rw [hnone] at ht
        cases ht
      · exact Or.inr ⟨t, hm.trans ht, hkey⟩
  · rw [inFlightCountForKey, inFlightRefills_eq h, inFlightCountForKey]

theorem Counts.refl (s : Shared) (l : Pc) : Counts key s l s := ⟨Or.inl le_rfl, le_rfl⟩

theorem Step.counts (h : Step key e s l s' l') : Counts key s l s' := by
  cases h with
  | beginWork h | created _ h => exact .of_pool h (Or.inl rfl)
  | work h | add h _ => exact .of_pool h (Or.inr rfl)
  | endRefill =>
    refine ⟨Or.inl le_rfl, ?_⟩
    rw [inFlightCountForKey_endRefill]
    exact Nat.sub_le _ _
  | _ => exact .refl s _

/-! ## Within the target -/

/-- What a request relies on: the depth has not risen since it was read, and what is left to
start fits. -/
def Fits (key : TemplateKey) (s : Shared) : Pc → Prop
  | .depthRead _ current => s.pool.depth key ≤ current
  | .starting target (left + 1) =>
    s.pool.depth key + s.pool.inFlightCountForKey key + (left + 1) ≤ target
  | _ => True

/-- The invariant. -/
def Inv (key : TemplateKey) : StatePred St := fun s => ∀ l ∈ s.tasks, Fits key s.shared l

theorem init_inv (s : St) (h : Init key s) : Inv key s := by
  intro l hl
  rw [h.1 l hl]
  trivial

/-- What a request relies on is kept if neither number rises. -/
theorem Fits.mono (h : Fits key s m) (hdepth : s'.pool.depth key ≤ s.pool.depth key)
    (hcount : s'.pool.inFlightCountForKey key ≤ s.pool.inFlightCountForKey key) :
    Fits key s' m := by
  cases m with
  | depthRead target current => exact hdepth.trans h
  | starting target left =>
    cases left with
    | zero => trivial
    | succ left =>
      have h : s.pool.depth key + s.pool.inFlightCountForKey key + (left + 1) ≤ target := h
      have : s'.pool.depth key + s'.pool.inFlightCountForKey key + (left + 1) ≤ target := by
        omega
      exact this
  | _ => trivial

/-- A request that relies on nothing. -/
theorem fits_of_not (hread : ¬ m.Reading) (hstart : ¬ m.Starting) : Fits key s m := by
  cases m with
  | depthRead target current => exact absurd trivial hread
  | starting target left =>
    cases left with
    | zero => trivial
    | succ left => exact absurd trivial hstart
  | _ => trivial

/-- The task that moves. -/
theorem Step.fits (h : Step key e s l s' l') (hl : Fits key s l) : Fits key s' l' := by
  cases h with
  | readDepth target => exact le_rfl
  | @readInFlight _ target current =>
    have hdepth : s.pool.depth key ≤ current := hl
    rcases hleft : target - (current + s.pool.inFlightCountForKey key) with _ | left
    · trivial
    · have : s.pool.depth key + s.pool.inFlightCountForKey key + (left + 1) ≤ target := by
        omega
      exact this
  | _ => trivial

/-- The request that starts a refill has one less to start, and one more is in flight. -/
theorem Fits.started {target left : ℕ} (h : Fits key s (.starting target (left + 1)))
    (hdepth : s'.pool.depth key = s.pool.depth key)
    (hcount : s'.pool.inFlightCountForKey key = s.pool.inFlightCountForKey key + 1) :
    Fits key s' (.starting target left) := by
  cases left with
  | zero => trivial
  | succ left =>
    have h : s.pool.depth key + s.pool.inFlightCountForKey key + (left + 1 + 1) ≤ target := h
    have : s'.pool.depth key + s'.pool.inFlightCountForKey key + (left + 1) ≤ target := by
      omega
    exact this

/-- The start of a refill is nothing to a request that has none left to start. -/
theorem Fits.beside_started (h : Fits key s m) (hstart : ¬ m.Starting)
    (hdepth : s'.pool.depth key = s.pool.depth key) : Fits key s' m := by
  cases m with
  | depthRead target current => exact hdepth.trans_le h
  | starting target left =>
    cases left with
    | zero => trivial
    | succ left => exact absurd trivial hstart
  | _ => trivial

theorem step_inv (a : Label) (s s' : St) (hok : Orderly key a s) (hn : next key a s s')
    (hi : Inv key s) : Inv key s' := by
  intro m hm
  cases a with
  | task i e =>
    obtain ⟨l, l', hl, hstep, hset⟩ := hn
    rw [hset] at hm
    obtain ⟨j, hj⟩ := List.mem_iff_getElem?.mp hm
    rcases getElem?_set_cases hj with ⟨-, rfl⟩ | ⟨hji, hold⟩
    · exact hstep.fits (hi l (List.mem_of_getElem? hl))
    · rcases hstep.counts.depth with hdepth | ⟨t, ht, hkey⟩
      · exact (hi m (List.mem_of_getElem? hold)).mono hdepth hstep.counts.inFlight
      · -- a template is filed under the key: no other request has read the depth
        obtain ⟨hread, hstart⟩ := hok l t hl ht hkey j m hji hold
        exact fits_of_not hread hstart
  | start i =>
    obtain ⟨target, left, hl, rfl⟩ := hn
    have hcount := inFlightCountForKey_beginRefill s.shared.pool key
    rcases List.mem_append.mp hm with hold | hnew
    · obtain ⟨j, hj⟩ := List.mem_iff_getElem?.mp hold
      rcases getElem?_set_cases hj with ⟨-, rfl⟩ | ⟨hji, hold⟩
      · exact (hi _ (List.mem_of_getElem? hl)).started rfl hcount
      · exact (hi m (List.mem_of_getElem? hold)).beside_started (hok j m hji hold) rfl
    · rw [List.mem_singleton.mp hnew]
      trivial

/-! ## The number of refills in flight -/

/-- The tasks that are counted. -/
def weight (l : Pc) : ℕ := if l.running then 1 else 0

def Counted (key : TemplateKey) : StatePred St := fun s =>
  s.shared.pool.inFlightCountForKey key = (s.tasks.map weight).sum

theorem sum_weight (ts : List Pc) : (ts.map weight).sum = ts.countP (·.running) := by
  induction ts with
  | nil => rfl
  | cons l ts ih => rw [List.map_cons, List.sum_cons, List.countP_cons, ih, add_comm, weight]

theorem init_counted (s : St) (h : Init key s) : Counted key s := by
  have hnone : s.tasks.countP (·.running) = 0 := by
    rw [List.countP_eq_zero]
    intro l hl
    rw [h.1 l hl]
    exact Bool.false_ne_true
  rw [Counted, h.2, sum_weight, hnone]

/-- A step counts its task out, or leaves the count and the task as they are. -/
theorem Step.weight (h : Step key e s l s' l') :
    (s'.pool.inFlightCountForKey key = s.pool.inFlightCountForKey key ∧
      Refills.weight l' = Refills.weight l) ∨
    (s'.pool.inFlightCountForKey key = s.pool.inFlightCountForKey key - 1 ∧
      Refills.weight l = 1 ∧ Refills.weight l' = 0) := by
  have hsame : ∀ {l l' : PoolTasks.Pc}, PoolTasks.Step e s l s' l' →
      s'.pool.inFlightCountForKey key = s.pool.inFlightCountForKey key := by
    intro l l' h
    rw [inFlightCountForKey, inFlightRefills_eq h, inFlightCountForKey]
  cases h with
  | beginWork h | work h | created _ h | add h _ => exact Or.inl ⟨hsame h, rfl⟩
  | endRefill =>
    exact Or.inr ⟨inFlightCountForKey_endRefill _ key, rfl, rfl⟩
  | _ => exact Or.inl ⟨rfl, rfl⟩

theorem step_counted (s s' : St) (hn : AnyStep (next key) s s') (hi : Counted key s) :
    Counted key s' := by
  obtain ⟨a, hn⟩ := hn
  unfold Counted at *
  cases a with
  | task i e =>
    obtain ⟨l, l', hl, hstep, hset⟩ := hn
    have hsum := sum_weight_set (w := weight) l' hl
    rw [hset]
    rcases hstep.weight with ⟨hcount, hw⟩ | ⟨hcount, hw, hw'⟩ <;> omega
  | start i =>
    obtain ⟨target, left, hl, rfl⟩ := hn
    have hsum := sum_weight_set (w := weight) (.starting target left) hl
    have hcount := inFlightCountForKey_beginRefill s.shared.pool key
    have hzero : weight (.starting target left) = 0 ∧
        weight (.starting target (left + 1)) = 0 := ⟨rfl, rfl⟩
    have hone : weight .creating = 1 := rfl
    rw [hcount, List.map_append, List.sum_append, List.map_singleton, List.sum_singleton, hone]
    omega

/-- **Refills.** In every run in which templates are filed under the key only while no other
task is between its reads and its last start, and a refill is started only while no other
request has refills left to start, a start keeps the depth and the refills in flight within
the target of its request. In every run at all, the refills in flight are those that run. -/
theorem refills_within_target (key : TemplateKey) :
    (∀ s s' : St, Reachable (Init key) (Guarded (Orderly key) (next key)) s →
      ∀ i target left, s.tasks[i]? = some (.starting target (left + 1)) →
        next key (.start i) s s' →
          s'.shared.pool.depth key + s'.shared.pool.inFlightCountForKey key ≤ target) ∧
    ∀ s : St, Reachable (Init key) (AnyStep (next key)) s →
      s.shared.pool.inFlightCountForKey key = s.tasks.countP (·.running) ∧
      ((∀ l ∈ s.tasks, l.running = false) → s.shared.pool.inFlightCountForKey key = 0) := by
  refine ⟨?_, ?_⟩
  · intro s s' h i target left hi hn
    have hfit : Fits key s.shared (.starting target (left + 1)) :=
      h.guarded_invariant init_inv step_inv _ (List.mem_of_getElem? hi)
    obtain ⟨target', left', hi', rfl⟩ := hn
    have hcount := inFlightCountForKey_beginRefill s.shared.pool key
    have hfit : s.shared.pool.depth key + s.shared.pool.inFlightCountForKey key + (left + 1) ≤
        target := hfit
    have hgoal : s.shared.pool.depth key +
        (s.shared.pool.beginRefill key).inFlightCountForKey key ≤ target := by
      omega
    exact hgoal
  · intro s h
    have hcounted : s.shared.pool.inFlightCountForKey key = s.tasks.countP (·.running) :=
      (h.invariant init_counted step_counted).trans (sum_weight s.tasks)
    refine ⟨hcounted, fun hnone => ?_⟩
    rw [hcounted, List.countP_eq_zero]
    intro l hl
    simp [hnone l hl]

/-! ## Two requests at once -/

def environmentKey : TemplateKey := ⟨"vmlinux:image:1:1024::virtio-blk"⟩

/-- A pool without templates. -/
def bare : Shared := ⟨⟨.empty, .empty, .empty, .empty, 4, 4, 10, .shared, true⟩, [], fun _ => none⟩

/-- Two tasks that have not begun. -/
def calm : St := ⟨bare, [.idle, .idle]⟩

theorem calm_init : Init environmentKey calm := ⟨by simp [calm], rfl⟩

/-- The first has a refill to start for a target of one. -/
def counted : St := ⟨bare, [.starting 1 1, .idle]⟩

theorem refills_within_counted :
    ∃ s' : St, next environmentKey (.start 0) counted s' ∧
      s'.shared.pool.depth environmentKey +
        s'.shared.pool.inFlightCountForKey environmentKey ≤ 1 := by
  have hread : Reachable (Init environmentKey)
      (Guarded (Orderly environmentKey) (next environmentKey))
      ⟨bare, [.depthRead 1 0, .idle]⟩ := by
    refine (Reachable.init calm_init).step ⟨.task 0 .quiet, ?_, _, _, rfl, .readDepth 1, rfl⟩
    rintro l t ⟨⟩ ⟨⟩
  have hcounted : Reachable (Init environmentKey)
      (Guarded (Orderly environmentKey) (next environmentKey)) counted := by
    refine hread.step ⟨.task 0 .quiet, ?_, _, _, rfl, .readInFlight, rfl⟩
    rintro l t ⟨⟩ ⟨⟩
  refine ⟨_, ⟨1, 0, rfl, rfl⟩, ?_⟩
  exact (refills_within_target environmentKey).1 counted _ hcounted 0 1 0 rfl ⟨1, 0, rfl, rfl⟩

/-- Two requests for a depth of one read an empty pool, and both start a refill. -/
theorem two_requests_overshoot :
    ∃ s s' : St, Reachable (Init environmentKey) (AnyStep (next environmentKey)) s ∧
      ∃ i target left, s.tasks[i]? = some (.starting target (left + 1)) ∧
        next environmentKey (.start i) s s' ∧
        target < s'.shared.pool.depth environmentKey +
          s'.shared.pool.inFlightCountForKey environmentKey := by
  have hread : Reachable (Init environmentKey) (AnyStep (next environmentKey))
      ⟨bare, [.depthRead 1 0, .idle]⟩ :=
    (Reachable.init calm_init).anyStep (.task 0 .quiet) ⟨_, _, rfl, .readDepth 1, rfl⟩
  have hboth : Reachable (Init environmentKey) (AnyStep (next environmentKey))
      ⟨bare, [.depthRead 1 0, .depthRead 1 0]⟩ :=
    hread.anyStep (.task 1 .quiet) ⟨_, _, rfl, .readDepth 1, rfl⟩
  have hone : Reachable (Init environmentKey) (AnyStep (next environmentKey))
      ⟨bare, [.starting 1 1, .depthRead 1 0]⟩ :=
    hboth.anyStep (.task 0 .quiet) ⟨_, _, rfl, .readInFlight, rfl⟩
  have htwo : Reachable (Init environmentKey) (AnyStep (next environmentKey))
      ⟨bare, [.starting 1 1, .starting 1 1]⟩ :=
    hone.anyStep (.task 1 .quiet) ⟨_, _, rfl, .readInFlight, rfl⟩
  have hfirst := htwo.anyStep (.start 0) ⟨1, 0, rfl, rfl⟩
  refine ⟨_, _, hfirst, 1, 1, 0, rfl, ⟨1, 0, rfl, rfl⟩, ?_⟩
  decide

end Refills

end Kuasar

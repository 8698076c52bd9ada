import Kuasar.Template.PoolLimits

/-!
# Template.EvictionOrder — which template a full key gives up

A key that is full gives up the front of its queue, or refuses the new template if the
front is held. The front is the template that was filed first. That is the oldest of the
added kind only if the queue has one kind and was filled in the order of creation: a load
files the directories in the order in which `read_dir` lists them, those of `environment`
before those of `warmfork`, and what is put back goes behind newer templates.

`oldest_first_iff`: in the runs that fill each queue in the order of creation, with one
kind, the check is fair exactly if the front of the full key is not held while a younger
template is idle. `unfair_evictions` has a run for each of the three ways it fails.
-/

namespace Kuasar.EvictionOrder

open TemplatePool Tla PoolTasks
open Consumption (Scan loadFromDisk loaded loadFromDisk_eq)
open PoolLimits (Move next_of_step)

/-- A task takes a step, or a new process with `n` tasks loads the directories it lists
into the empty pool `p`. -/
inductive Label where
  | task (m : Move)
  | load (p : TemplatePool) (envs forks : List Scan) (n : ℕ)

/-- `load_from_disk`, in a new process: the directories of the two kinds, one after the
other and each in any order. -/
structure Load (p : TemplatePool) (envs forks : List Scan) (n : ℕ) (s s' : St) : Prop where
  empty : p.available = .empty
  environment : ∀ d ∈ envs, d.entry.tmpl.snapshotType = .environment
  warmfork : ∀ d ∈ forks, d.entry.tmpl.snapshotType = .warmFork
  once : ((envs ++ forks).map (·.entry.tmpl.id)).Nodup
  onDisk : ∀ d ∈ envs ++ forks, ∃ dir ∈ s.shared.dirs, templateDir d.entry.tmpl = some dir
  shared : s'.shared = { s.shared with pool := loadFromDisk p (envs ++ forks) }
  tasks : s'.tasks = List.replicate n .idle

/-- The steps. -/
def next : Label → Action St
  | .task m => PoolLimits.next m
  | .load p envs forks n => Load p envs forks n

/-! ## What the check of the depth chooses -/

/-- An `add` of `new` at its check of the depth goes on to evict `old`. -/
def Evicts (s : Shared) (new old : PooledTemplate) : Prop :=
  ∃ e s', Step e s (.addDepth new) s' (.addEvict new old .maxPerKey)

/-- It goes on to refuse `new`. -/
def Refuses (s : Shared) (new : PooledTemplate) : Prop :=
  ∃ e s' max key oldest,
    Step e s (.addDepth new) s' (.addCleanup new (.maxPerKey max key oldest))

/-- What is evicted is an evictable template of the key and kind of `new`, and no other is
older; `new` is refused only if none is evictable. -/
structure OldestFirst (s : Shared) (new : PooledTemplate) : Prop where
  evicts : ∀ old, Evicts s new old →
    old ∈ s.pool.available.queue new.key ∧ old.snapshotType = new.snapshotType ∧
      s.pool.idle old = true ∧
      ∀ t ∈ s.pool.available.queue new.key, t.snapshotType = new.snapshotType →
        s.pool.idle t = true → old.createdAtSecs ≤ t.createdAtSecs
  refuses : Refuses s new →
    ∀ t ∈ s.pool.available.queue new.key, t.snapshotType = new.snapshotType →
      s.pool.idle t = false

/-- The key of `new` is full and its front is held, while a younger template is idle. -/
def FrontHeld (p : TemplatePool) (new : PooledTemplate) : Prop :=
  ∃ old rest max, p.kindMaxPerKey new.snapshotType = some max ∧
    p.available.queue new.key = old :: rest ∧ max ≤ (old :: rest).length ∧
    p.idle old = false ∧ ∃ t ∈ rest, p.idle t = true

section

variable {s : Shared} {new old : PooledTemplate}

theorem evicts_iff : Evicts s new old ↔ s.pool.depthEviction new = some (old, true) := by
  constructor
  · rintro ⟨e, s', h⟩
    cases h with
    | addDepthEvict h => exact h
  · exact fun h => ⟨.quiet, s, .addDepthEvict h⟩

theorem refuses_iff : Refuses s new ↔ ∃ old, s.pool.depthEviction new = some (old, false) := by
  constructor
  · rintro ⟨e, s', max, key, oldest, h⟩
    cases h with
    | addDepthHeld _ h => exact ⟨_, h⟩
  · rintro ⟨old, h⟩
    obtain ⟨max, hmax, -⟩ := depthEviction_eq_some_iff.mp h
    exact ⟨.quiet, s, max, _, _, .addDepthHeld hmax h⟩

end

/-! ## Queues in the order of creation -/

section

variable (kindOf : TemplateKey → SnapshotType)

/-- Each queue has templates of one kind, oldest first. -/
structure Ordered (p : TemplatePool) : Prop where
  filed : Filed kindOf p
  sorted : ∀ key, (p.available.queue key).Pairwise (·.createdAtSecs ≤ ·.createdAtSecs)

/-- Any number of idle tasks over such a pool. -/
def Init : StatePred St := fun s =>
  (∀ l ∈ s.tasks, l = .idle) ∧ Ordered kindOf s.shared.pool

/-- A template is added with the kind of its key, and filed while its key has no newer one;
a load lists the templates of a key, which have one kind, in the order of creation. -/
def InOrder : Label → StatePred St
  | .task m, s =>
    (∀ new, s.tasks[m.task]? = some .idle → m.goal = .addLevel new →
      new.snapshotType = kindOf new.key) ∧
    ∀ l t, s.tasks[m.task]? = some l → m.goal = .idle → l.pushes = some t →
      ∀ u ∈ s.shared.pool.available.queue t.key, u.createdAtSecs ≤ t.createdAtSecs
  | .load _ envs forks _, _ =>
    (∀ t ∈ loaded (envs ++ forks), t.snapshotType = kindOf t.key) ∧
    (loaded (envs ++ forks)).Pairwise fun t u => t.key = u.key → t.createdAtSecs ≤ u.createdAtSecs

/-- The invariant. -/
structure Inv (s : St) : Prop where
  pool : Ordered kindOf s.shared.pool
  kinds : ∀ l ∈ s.tasks, ∀ t ∈ l.mentions, t.snapshotType = kindOf t.key

end

variable {kindOf : TemplateKey → SnapshotType} {p p' : TemplatePool} {t new : PooledTemplate}

theorem Ordered.shrinks (hp : Ordered kindOf p) (h : p.available.Shrinks p'.available) :
    Ordered kindOf p' where
  filed := hp.filed.shrinks h
  sorted key := (hp.sorted key).sublist (h.queue key)

theorem Ordered.pushBack (hp : Ordered kindOf p) (hkind : t.snapshotType = kindOf t.key)
    (hnewest : ∀ u ∈ p.available.queue t.key, u.createdAtSecs ≤ t.createdAtSecs) :
    Ordered kindOf (p.pushBack t) where
  filed := hp.filed.pushBack hkind
  sorted key := by
    rw [TemplatePool.pushBack, Queues.queue_pushBack]
    split
    · refine List.pairwise_append.mpr ⟨hp.sorted t.key, List.pairwise_singleton _ _, ?_⟩
      intro u hu v hv
      rw [List.mem_singleton.mp hv]
      exact hnewest u hu
    · exact hp.sorted key

theorem ordered_loadFromDisk {scan : List Scan} (hempty : p.available = .empty)
    (hkinds : ∀ t ∈ loaded scan, t.snapshotType = kindOf t.key)
    (hsorted : (loaded scan).Pairwise fun t u => t.key = u.key →
      t.createdAtSecs ≤ u.createdAtSecs) : Ordered kindOf (loadFromDisk p scan) := by
  have hqueue : ∀ key, (loadFromDisk p scan).available.queue key =
      (loaded scan).filter (·.key = key) := by
    intro key
    rw [loadFromDisk_eq, foldl_pushBack_queue, hempty]
    rfl
  refine ⟨?_, ?_⟩
  · intro key t ht
    rw [hqueue, List.mem_filter, decide_eq_true_iff] at ht
    obtain ⟨hmem, rfl⟩ := ht
    exact ⟨rfl, hkinds t hmem⟩
  · intro key
    rw [hqueue, List.pairwise_filter]
    refine hsorted.imp ?_
    intro t u hle ht hu
    exact hle ((of_decide_eq_true ht).trans (of_decide_eq_true hu).symm)

theorem init_inv (s : St) (h : Init kindOf s) : Inv kindOf s := by
  refine ⟨h.2, ?_⟩
  intro l hl t ht
  rw [h.1 l hl] at ht
  cases ht

theorem step_inv (a : Label) (s s' : St) (hok : InOrder kindOf a s) (h : next a s s')
    (hs : Inv kindOf s) : Inv kindOf s' := by
  cases a with
  | task m =>
    obtain ⟨hadd, hfile⟩ := hok
    obtain ⟨l, _, hi, ⟨hstep, rfl⟩, hset⟩ := h
    have hl := hs.kinds l (List.mem_of_getElem? hi)
    refine ⟨?_, ?_⟩
    · rcases hstep.queues with hshrinks | ⟨t, hpush, hgoal, hpool⟩
      · exact hs.pool.shrinks hshrinks
      · rw [hpool]
        exact hs.pool.pushBack (hl t (mem_mentions_of_pushes hpush)) (hfile l t hi hgoal hpush)
    · intro n hn
      rw [hset] at hn
      rcases List.mem_or_eq_of_mem_set hn with hold | rfl
      · exact hs.kinds n hold
      · refine hstep.mentions_all (fun t ht => hs.pool.filed.kind_of_mem ht) hl ?_
        rintro new rfl hgoal
        exact hadd new hi hgoal
  | load p envs forks n =>
    refine ⟨?_, ?_⟩
    · rw [h.shared]
      exact ordered_loadFromDisk h.empty hok.1 hok.2
    · intro l hl t ht
      rw [h.tasks] at hl
      rw [List.eq_of_mem_replicate hl] at ht
      cases ht

/-! ## The oldest first -/

/-- In a pool whose queues are in order, the check is fair unless the front is held. -/
theorem Ordered.oldestFirst_iff {s : Shared} (hp : Ordered kindOf s.pool)
    (hnew : new.snapshotType = kindOf new.key) : OldestFirst s new ↔ ¬ FrontHeld s.pool new := by
  constructor
  · rintro hfair ⟨old, rest, max, hmax, hqueue, hfull, hheld, t, ht, hidle⟩
    have hrefuses : Refuses s new := by
      refine refuses_iff.mpr ⟨old, depthEviction_eq_some_iff.mpr ⟨max, hmax, ?_, ?_, hheld⟩⟩
      · rw [hqueue]
        exact hfull
      · rw [hqueue]
        rfl
    have hmem : t ∈ s.pool.available.queue new.key := by
      rw [hqueue]
      exact List.mem_cons_of_mem old ht
    have hkind := (hp.filed new.key t hmem).2.trans hnew.symm
    rw [hfair.refuses hrefuses t hmem hkind] at hidle
    cases hidle
  · intro hfront
    refine ⟨?_, ?_⟩
    · intro old hevicts
      have hchosen := evicts_iff.mp hevicts
      have hmem := depthEviction_mem hchosen
      obtain ⟨max, -, -, hhead, hidle⟩ := depthEviction_eq_some_iff.mp hchosen
      refine ⟨hmem, (hp.filed new.key old hmem).2.trans hnew.symm, hidle, ?_⟩
      intro t ht _ _
      obtain ⟨rest, hqueue⟩ := List.head?_eq_some_iff.mp hhead
      have hsorted := hp.sorted new.key
      rw [hqueue] at ht hsorted
      rcases List.mem_cons.mp ht with rfl | ht
      · exact Nat.le_refl _
      · exact (List.pairwise_cons.mp hsorted).1 t ht
    · intro hrefuses t ht _
      obtain ⟨old, hchosen⟩ := refuses_iff.mp hrefuses
      obtain ⟨max, hmax, hfull, hhead, hheld⟩ := depthEviction_eq_some_iff.mp hchosen
      obtain ⟨rest, hqueue⟩ := List.head?_eq_some_iff.mp hhead
      rw [hqueue] at ht hfull
      rcases List.mem_cons.mp ht with rfl | ht
      · exact hheld
      · by_contra hidle
        exact hfront ⟨old, rest, max, hmax, hqueue, hfull, hheld, t, ht,
          (Bool.not_eq_false _).mp hidle⟩

/-- **The oldest first.** In every run that fills the queues in the order of creation, with
one kind for each key, the check of the depth evicts the oldest evictable template of the
key and kind, and refuses only if there is none, exactly if the front of the key is not
held while a younger template is idle. -/
theorem oldest_first_iff (kindOf : TemplateKey → SnapshotType) (s : St)
    (h : Reachable (Init kindOf) (Guarded (InOrder kindOf) next) s) (new : PooledTemplate)
    (hadd : .addDepth new ∈ s.tasks) :
    OldestFirst s.shared new ↔ ¬ FrontHeld s.shared.pool new := by
  have hs := h.guarded_invariant init_inv step_inv
  exact hs.pool.oldestFirst_iff (hs.kinds (.addDepth new) hadd new (by simp))

/-! ## The front is not the oldest -/

open PoolAdd (template)

/-- A pool that keeps two templates of each kind and key. -/
def twoEach : TemplatePool := .new 2 2 10 .shared true

/-- The store that a process left behind, with these templates in it. -/
def leftBehind (ts : List PooledTemplate) : Shared where
  pool := twoEach
  dirs := ts.filterMap templateDir
  kinds id := (ts.find? (·.id = id)).map (·.snapshotType)

/-- The directory of a template that was not consumed. -/
def scanOf (t : PooledTemplate) : Scan := ⟨⟨t, false⟩, true, true⟩

/-- A new process with two tasks has loaded the templates in this order. -/
def restarted (envs forks : List PooledTemplate) : St where
  shared :=
    { leftBehind (envs ++ forks) with
      pool := loadFromDisk twoEach (envs.map scanOf ++ forks.map scanOf) }
  tasks := [.idle, .idle]

theorem twoEach_ordered : Ordered kindOf twoEach :=
  ⟨fun _ _ ht => absurd ht List.not_mem_nil, fun _ => .nil⟩

theorem restarted_reachable {envs forks : List PooledTemplate}
    (henvs : ∀ t ∈ envs, t.snapshotType = .environment)
    (hforks : ∀ t ∈ forks, t.snapshotType = .warmFork)
    (honce : ((envs ++ forks).map (·.id)).Nodup) :
    Reachable (Init kindOf) (AnyStep next) (restarted envs forks) := by
  have h₀ : Reachable (Init kindOf) (AnyStep next) ⟨leftBehind (envs ++ forks), []⟩ :=
    .init ⟨by simp, twoEach_ordered⟩
  refine h₀.anyStep (.load twoEach (envs.map scanOf) (forks.map scanOf) 2)
    ⟨rfl, ?_, ?_, ?_, ?_, rfl, rfl⟩
  · simpa [scanOf] using henvs
  · simpa [scanOf] using hforks
  · simpa [scanOf, Function.comp_def] using honce
  · rw [← List.map_append]
    intro d hd
    obtain ⟨t, ht, rfl⟩ := List.mem_map.mp hd
    have hdir : ∃ dir, templateDir t = some dir := by
      rcases List.mem_append.mp ht with h | h
      · exact ⟨_, by rw [templateDir, henvs t h]⟩
      · exact ⟨_, by rw [templateDir, hforks t h]⟩
    obtain ⟨dir, hdir⟩ := hdir
    exact ⟨dir, List.mem_filterMap.mpr ⟨t, ht, hdir⟩, hdir⟩

/-- An `add` below the water level comes to its check of the depth. -/
theorem addDepth_reachable {s : St} {d : StoreDir} (i : ℕ) (new : PooledTemplate)
    (h : Reachable (Init kindOf) (AnyStep next) s) (hi : s.tasks[i]? = some .idle)
    (hd : templateDir new = some d) (hfresh : s.shared.kinds new.id = none)
    (hidle : s.shared.pool.idle new = true)
    (hlevel : s.shared.pool.totalDepth < s.shared.pool.gcWatermark) :
    Reachable (Init kindOf) (AnyStep next)
      ⟨s.shared.register new d, s.tasks.set i (.addDepth new)⟩ := by
  have h₁ := h.anyStep (.task ⟨i, .quiet, .addLevel new⟩)
    (next_of_step hi (.callAdd hd hfresh hidle))
  have hlen := (List.getElem?_eq_some_iff.mp hi).1
  have h₂ := h₁.anyStep (.task ⟨i, .quiet, .addDepth new⟩)
    (next_of_step (l := .addLevel new) (List.getElem?_set_self hlen) (.addBelow hlevel))
  rwa [List.set_set] at h₂

/-- An Environment template of the key `k`. -/
def env (id : String) (createdAtSecs : ℕ) : PooledTemplate :=
  template id "k" .environment createdAtSecs

/-- A WarmFork template of the key `k`. -/
def fork (id : String) (createdAtSecs : ℕ) : PooledTemplate :=
  template id "k" .warmFork createdAtSecs

/-- A load in the order of creation, and an `add` at its check of the depth. -/
def atCheck : St where
  shared := (restarted [env "e1" 1, env "e2" 2] []).shared.register (env "e3" 9)
    ["environment", "e3"]
  tasks := [.addDepth (env "e3" 9), .idle]

theorem atCheck_reachable :
    Reachable (Init fun _ => .environment) (Guarded (InOrder fun _ => .environment) next)
      atCheck := by
  have h₀ : Reachable (Init fun _ => .environment) (Guarded (InOrder fun _ => .environment) next)
      (restarted [env "e1" 1, env "e2" 2] []) :=
    .init ⟨by simp [restarted], ordered_loadFromDisk rfl (by decide) (by decide)⟩
  have hcall : InOrder (fun _ => .environment) (.task ⟨0, .quiet, .addLevel (env "e3" 9)⟩)
      (restarted [env "e1" 1, env "e2" 2] []) := by
    refine ⟨?_, fun _ _ _ hgoal => absurd hgoal (by simp)⟩
    intro new _ hgoal
    rw [← Pc.addLevel.inj hgoal]
    rfl
  have h₁ := h₀.step ⟨Label.task ⟨0, .quiet, .addLevel (env "e3" 9)⟩, hcall,
    next_of_step rfl (.callAdd rfl rfl rfl)⟩
  refine h₁.step ⟨Label.task ⟨0, .quiet, .addDepth (env "e3" 9)⟩, ?_,
    next_of_step rfl (.addBelow (by decide))⟩
  exact ⟨fun _ _ hgoal => absurd hgoal (by simp), fun _ _ _ hgoal => absurd hgoal (by simp)⟩

theorem oldest_first_atCheck :
    Evicts atCheck.shared (env "e3" 9) (env "e1" 1) ∧ OldestFirst atCheck.shared (env "e3" 9) := by
  refine ⟨evicts_iff.mpr rfl, ?_⟩
  refine (oldest_first_iff (fun _ => .environment) atCheck atCheck_reachable (env "e3" 9)
    List.mem_cons_self).mpr ?_
  -- nothing is held
  rintro ⟨old, rest, max, -, -, -, hheld, -⟩
  cases hheld

/-- Three runs in which a key with two templates is full. A load files an Environment template in
front of a WarmFork template, and the add of a WarmFork template evicts the former. A load
lists the newer template first, and that is evicted. The older template is being restored,
and the add is refused although the newer one is idle. -/
theorem unfair_evictions :
    (∃ s : St, Reachable (Init fun _ => .warmFork) (AnyStep next) s ∧
      .addDepth (fork "w2" 9) ∈ s.tasks ∧ Evicts s.shared (fork "w2" 9) (env "e1" 5) ∧
      ¬ OldestFirst s.shared (fork "w2" 9)) ∧
    (∃ s : St, Reachable (Init fun _ => .environment) (AnyStep next) s ∧
      .addDepth (env "e3" 9) ∈ s.tasks ∧ Evicts s.shared (env "e3" 9) (env "e2" 2) ∧
      env "e1" 1 ∈ s.shared.pool.available.queue ⟨"k"⟩ ∧ s.shared.pool.idle (env "e1" 1) = true ∧
      ¬ OldestFirst s.shared (env "e3" 9)) ∧
    ∃ s : St, Reachable (Init fun _ => .environment) (AnyStep next) s ∧
      .addDepth (env "e3" 9) ∈ s.tasks ∧ Refuses s.shared (env "e3" 9) ∧
      env "e2" 2 ∈ s.shared.pool.available.queue ⟨"k"⟩ ∧ s.shared.pool.idle (env "e2" 2) = true ∧
      ¬ OldestFirst s.shared (env "e3" 9) := by
  refine ⟨?_, ?_, ?_⟩
  · have h₀ : Reachable (Init fun _ => .warmFork) (AnyStep next)
        (restarted [env "e1" 5] [fork "w1" 1]) :=
      restarted_reachable (by decide) (by decide) (by decide)
    have h₁ := addDepth_reachable 0 (fork "w2" 9) h₀ rfl rfl rfl rfl (by decide)
    refine ⟨_, h₁, List.mem_cons_self, evicts_iff.mpr rfl, ?_⟩
    intro hfair
    exact absurd (hfair.evicts (env "e1" 5) (evicts_iff.mpr rfl)).2.1 (by decide)
  · have h₀ : Reachable (Init fun _ => .environment) (AnyStep next)
        (restarted [env "e2" 2, env "e1" 1] []) :=
      restarted_reachable (by decide) (by decide) (by decide)
    have h₁ := addDepth_reachable 0 (env "e3" 9) h₀ rfl rfl rfl rfl (by decide)
    refine ⟨_, h₁, List.mem_cons_self, evicts_iff.mpr rfl, by decide, rfl, ?_⟩
    intro hfair
    have hle := (hfair.evicts (env "e2" 2) (evicts_iff.mpr rfl)).2.2.2
    exact absurd (hle (env "e1" 1) (by decide) rfl rfl) (by decide)
  · have h₀ : Reachable (Init fun _ => .environment) (AnyStep next)
        (restarted [env "e1" 1, env "e2" 2] []) :=
      restarted_reachable (by decide) (by decide) (by decide)
    have h₁ := h₀.anyStep (.task ⟨1, .quiet, .take (.peekByIdForRestore "e1")⟩)
      (next_of_step rfl (.callTake _))
    have h₂ := h₁.anyStep (.task ⟨1, .takes "e1", .lease (env "e1" 1) false⟩)
      (next_of_step rfl (@Step.takeSome _ _ (env "e1" 1) _ rfl))
    have h₃ := addDepth_reachable 0 (env "e3" 9) h₂ rfl rfl rfl rfl (by decide)
    refine ⟨_, h₃, List.mem_cons_self, refuses_iff.mpr ⟨env "e1" 1, rfl⟩, by decide, rfl, ?_⟩
    intro hfair
    have hheld := hfair.refuses (refuses_iff.mpr ⟨env "e1" 1, rfl⟩)
    exact absurd (hheld (env "e2" 2) (by decide) rfl) (by decide)

end Kuasar.EvictionOrder

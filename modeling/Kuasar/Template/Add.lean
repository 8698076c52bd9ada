import Kuasar.Template.Pool

/-!
# Template.Add — adding a template, as one call

`add` makes the directory of the new template, checks the water level and the depth of the
key, each of which may evict another template, and then saves the new one and files it.
Here it runs with no other task in between. It returns what it leaves of the pool and of
the template directories.

`add_error_iff` says exactly when a call that fails has left the queues and the directories
as they were.
-/

namespace Kuasar.PoolAdd

open TemplatePool

/-- The pool and the template directories on disk. -/
structure Store where
  pool : TemplatePool
  dirs : List StoreDir

/-- Whether the calls to the file system succeed: the directory of the new template, the removals of
the two evictions, the metadata, and the removal of the new directory after a refusal. -/
structure Outcomes where
  createDir : Bool := true
  evictLevel : Bool := true
  evictDepth : Bool := true
  save : Bool := true
  cleanup : Bool := true

/-- Why `add` fails. The source panics on a continuation. -/
inductive AddError where
  | createDir (d : StoreDir)
  | refused (e : PoolError)
  | save (d : StoreDir)
  | unreachable
  deriving DecidableEq, Repr

namespace Store

variable (s : Store)

/-- `create_dir_all`. -/
def makeDir (d : StoreDir) : Store := if d ∈ s.dirs then s else { s with dirs := d :: s.dirs }

/-- `remove_dir_all`: to remove a directory that is not there is an error. -/
def removeDir (ok : Bool) (d : StoreDir) : Option Store :=
  if ok && d ∈ s.dirs then some { s with dirs := s.dirs.filter (· ≠ d) } else none

/-- The directory of a template goes. -/
def evict (ok : Bool) (old : PooledTemplate) : Option Store :=
  (templateDir old).bind (s.removeDir ok)

/-- The removal of the new directory; an error is logged. -/
def cleanup (o : Outcomes) (d : StoreDir) : Store := (s.removeDir o.cleanup d).getD s

end Store

section

variable (o : Outcomes) (new : PooledTemplate)

def checkLevel (s : Store) : Except PoolError Store :=
  if s.pool.totalDepth < s.pool.gcWatermark then .ok s
  else
    match s.pool.oldestCandidate with
    | none => .error (.waterLevel s.pool.totalDepth s.pool.gcWatermark)
    | some old =>
      match s.evict o.evictLevel old with
      | none => .error (.waterLevelEviction old.id)
      | some s' => .ok { s' with pool := s'.pool.dequeue old.id }

def checkDepth (s : Store) : Except PoolError Store :=
  match s.pool.depthEviction new with
  | none => .ok s
  | some (old, canEvict) =>
    if !canEvict then
      .error (.maxPerKey ((s.pool.kindMaxPerKey new.snapshotType).getD 0) new.key.key old.id)
    else
      match s.evict o.evictDepth old with
      | none => .error (.eviction old.id)
      | some s' => .ok { s' with pool := s'.pool.dequeueFrom new.key old.id }

/-- `add`. The directory is removed again after a refusal, but not after an error of the save. -/
def add (s : Store) : Store × Option AddError :=
  match templateDir new with
  | none => (s, some .unreachable)
  | some d =>
    if !o.createDir then (s, some (.createDir d))
    else
      match checkLevel o (s.makeDir d) with
      | .error e => ((s.makeDir d).cleanup o d, some (.refused e))
      | .ok s₁ =>
        match checkDepth o new s₁ with
        | .error e => (s₁.cleanup o d, some (.refused e))
        | .ok s₂ =>
          if !o.save then (s₂, some (.save d))
          else ({ s₂ with pool := s₂.pool.pushBack new }, none)

end

/-! ## What the checks do -/

def Keeps (s s' : Store) : Prop :=
  ∀ key, (s'.pool.available.queue key).Sublist (s.pool.available.queue key)

def Lost (s s' : Store) : Prop :=
  ∃ key, ∃ t ∈ s.pool.available.queue key, t ∉ s'.pool.available.queue key

/-- The directory of the template is there, and its removal succeeds. -/
def Removable (s : Store) (ok : Bool) (t : PooledTemplate) : Prop :=
  ok = true ∧ ∃ d ∈ s.dirs, templateDir t = some d

/-- The pool is full, and the oldest template that may go can be removed. -/
def LevelEvicts (o : Outcomes) (s : Store) : Prop :=
  s.pool.gcWatermark ≤ s.pool.totalDepth ∧
    ∃ old, s.pool.oldestCandidate = some old ∧ Removable s o.evictLevel old

/-- The key of `new` has as many templates as its kind may have, `old` first. -/
def FullBy (p : TemplatePool) (new old : PooledTemplate) : Prop :=
  ∃ max, p.kindMaxPerKey new.snapshotType = some max ∧
    max ≤ (p.available.queue new.key).length ∧ (p.available.queue new.key).head? = some old

/-- The pool and the key of `new` have room for it. -/
def HasRoom (p : TemplatePool) (new : PooledTemplate) : Prop :=
  p.totalDepth < p.gcWatermark ∧ ∀ old, ¬ FullBy p new old

/-- The key is full, and its first template is idle and can be removed. -/
def DepthEvicts (o : Outcomes) (new : PooledTemplate) (s : Store) : Prop :=
  ∃ old, FullBy s.pool new old ∧ s.pool.idle old = true ∧ Removable s o.evictDepth old

/-- The queues and the directories are as they were. -/
structure Unchanged (s s' : Store) : Prop where
  queue : ∀ key, s'.pool.available.queue key = s.pool.available.queue key
  dirs : s'.dirs = s.dirs

variable {o : Outcomes} {new old : PooledTemplate} {s s' s'' : Store} {d : StoreDir} {ok : Bool}

theorem Lost.keeps (h : Lost s s') (hk : Keeps s' s'') : Lost s s'' := by
  obtain ⟨key, t, ht, hgone⟩ := h
  exact ⟨key, t, ht, fun hmem => hgone ((hk key).subset hmem)⟩

theorem makeDir_pool : (s.makeDir d).pool = s.pool := by
  unfold Store.makeDir
  split <;> rfl

theorem removeDir_pool (h : s.removeDir ok d = some s') : s'.pool = s.pool := by
  unfold Store.removeDir at h
  split at h
  · rw [← Option.some.inj h]
  · cases h

theorem cleanup_pool : (s.cleanup o d).pool = s.pool := by
  unfold Store.cleanup
  rcases h : s.removeDir o.cleanup d with _ | s'
  · rfl
  · exact removeDir_pool h

theorem evict_cases (s : Store) (ok : Bool) (old : PooledTemplate) :
    (¬ Removable s ok old ∧ s.evict ok old = none) ∨
      (Removable s ok old ∧ ∃ s', s.evict ok old = some s' ∧ s'.pool = s.pool) := by
  unfold Store.evict Store.removeDir Removable
  rcases templateDir old with _ | d
  · simp
  · by_cases hd : ok = true ∧ d ∈ s.dirs <;> simp_all

/-- The check of the level lets the call go on, refuses, or evicts. -/
theorem checkLevel_cases (o : Outcomes) (s : Store) :
    (s.pool.totalDepth < s.pool.gcWatermark ∧ checkLevel o s = .ok s) ∨
      (s.pool.gcWatermark ≤ s.pool.totalDepth ∧ ¬ LevelEvicts o s ∧
        ∃ e, checkLevel o s = .error e) ∨
      (LevelEvicts o s ∧ ∃ s', checkLevel o s = .ok s' ∧ Lost s s') := by
  unfold checkLevel
  split
  · rename_i hroom
    exact Or.inl ⟨hroom, rfl⟩
  · rename_i hroom
    have hfull := Nat.le_of_not_lt hroom
    right
    split
    · rename_i hnone
      exact Or.inl ⟨hfull, fun ⟨_, old, hold, _⟩ => by simp [hnone] at hold, _, rfl⟩
    · rename_i old hold
      rcases evict_cases s o.evictLevel old with ⟨hkept, hevict⟩ | ⟨hgone, s', hevict, hpool⟩ <;>
        rw [hevict]
      · refine Or.inl ⟨hfull, fun ⟨_, u, hu, hrem⟩ => hkept ?_, _, rfl⟩
        rw [← Option.some.inj (hold.symm.trans hu)] at hrem
        exact hrem
      · refine Or.inr ⟨⟨hfull, old, hold, hgone⟩, _, rfl, ?_⟩
        obtain ⟨key, hkey⟩ := Queues.mem_all_iff.mp (oldestCandidate_some hold).1
        refine ⟨key, old, hkey, ?_⟩
        rw [dequeue, Queues.queue_retain]
        simp

/-- So does the check of the depth. -/
theorem checkDepth_cases (o : Outcomes) (new : PooledTemplate) (s : Store) :
    ((∀ old, ¬ FullBy s.pool new old) ∧ checkDepth o new s = .ok s) ∨
      ((∃ old, FullBy s.pool new old) ∧ ¬ DepthEvicts o new s ∧
        ∃ e, checkDepth o new s = .error e) ∨
      (DepthEvicts o new s ∧ ∃ s', checkDepth o new s = .ok s' ∧ Keeps s s' ∧ Lost s s') := by
  unfold checkDepth
  split
  · rename_i hnone
    refine Or.inl ⟨fun old ⟨max, hmax, hlen, hhead⟩ => ?_, rfl⟩
    have hsome := depthEviction_eq_some_iff.mpr ⟨max, hmax, hlen, hhead, rfl⟩
    simp [hnone] at hsome
  · rename_i old canEvict hold
    obtain ⟨max, hmax, hlen, hhead, rfl⟩ := depthEviction_eq_some_iff.mp hold
    have hfull : FullBy s.pool new old := ⟨max, hmax, hlen, hhead⟩
    have honly : DepthEvicts o new s ↔ s.pool.idle old = true ∧ Removable s o.evictDepth old := by
      constructor
      · rintro ⟨u, ⟨_, _, _, hu⟩, h⟩
        rw [← Option.some.inj (hhead.symm.trans hu)] at h
        exact h
      · exact fun h => ⟨old, hfull, h⟩
    right
    split
    · rename_i hbusy
      exact Or.inl ⟨⟨old, hfull⟩, fun h => by simp [(honly.mp h).1] at hbusy, _, rfl⟩
    · rename_i hidle
      rcases evict_cases s o.evictDepth old with ⟨hkept, hevict⟩ | ⟨hgone, s', hevict, hpool⟩ <;>
        rw [hevict]
      · exact Or.inl ⟨⟨old, hfull⟩, fun h => hkept (honly.mp h).2, _, rfl⟩
      · refine Or.inr ⟨honly.mpr ⟨by simpa using hidle, hgone⟩, _, rfl, ?_, ?_⟩
        · intro key
          rw [← hpool]
          exact (Queues.shrinks_adjust fun _ => List.filter_sublist).queue key
        · refine ⟨new.key, old, List.mem_of_head? hhead, ?_⟩
          rw [dequeueFrom, Queues.queue_adjust rfl, if_pos rfl]
          simp

/-- After a refusal the directory of the new template is gone, unless it cannot be removed. -/
theorem cleanup_makeDir_dirs :
    ((s.makeDir d).cleanup o d).dirs = s.dirs ↔ (d ∈ s.dirs ↔ o.cleanup = false) := by
  unfold Store.cleanup Store.removeDir Store.makeDir
  by_cases hd : d ∈ s.dirs
  · rcases hok : o.cleanup <;> simp [hd]
  · rcases hok : o.cleanup
    · simp [hd]
    · have hsame : s.dirs.filter (· ≠ d) = s.dirs := by
        refine List.filter_eq_self.mpr ?_
        intro d' hd'
        simpa using fun heq : d' = d => hd (heq ▸ hd')
      simpa [hd] using hsame

theorem makeDir_dirs : (s.makeDir d).dirs = s.dirs ↔ d ∈ s.dirs := by
  unfold Store.makeDir
  split
  · rename_i hd
    exact iff_of_true rfl hd
  · rename_i hd
    exact iff_of_false (List.cons_ne_self _ _) hd

/-! ## A call that fails -/

/-- One of the checks evicts a template: the level, or the depth if the pool has room. -/
def Evicts (o : Outcomes) (new : PooledTemplate) (s : Store) : Prop :=
  LevelEvicts o s ∨ (s.pool.totalDepth < s.pool.gcWatermark ∧ DepthEvicts o new s)

/-- The ways to leave `add` once the directory is made: a check refused, and the directory was
removed; the save failed; a template was evicted; the new one was filed. -/
inductive Leaves (o : Outcomes) (new : PooledTemplate) (d : StoreDir) (s : Store) :
    Store × Option AddError → Prop where
  | refused {e} (hno : ¬ Evicts o new s) (hfull : ¬ HasRoom s.pool new) :
      Leaves o new d s (s.cleanup o d, some (.refused e))
  | unsaved (hno : ¬ Evicts o new s) (hroom : HasRoom s.pool new) :
      Leaves o new d s (s, some (.save d))
  | evicted {r} (hev : Evicts o new s) (hlost : Lost s r.1) : Leaves o new d s r
  | filed {t} : Leaves o new d s (t, none)

theorem add_leaves (s : Store) (hd : templateDir new = some d) (hdir : o.createDir = true) :
    Leaves o new d (s.makeDir d) (add o new s) := by
  simp only [add, hd, hdir, Bool.not_true, Bool.false_eq_true, if_false]
  rcases checkLevel_cases o (s.makeDir d) with
    ⟨hroom, hlevel⟩ | ⟨hfull, hno, e, hlevel⟩ | ⟨hev, s₁, hlevel, hlost⟩
  · have hno : ¬ LevelEvicts o (s.makeDir d) := fun h => Nat.not_le_of_lt hroom h.1
    simp only [hlevel]
    rcases checkDepth_cases o new (s.makeDir d) with
      ⟨hfree, hdepth⟩ | ⟨⟨old, hold⟩, hno', e, hdepth⟩ | ⟨hev, s₂, hdepth, -, hlost⟩
    · have hno' : ¬ DepthEvicts o new (s.makeDir d) := fun ⟨old, hold, _⟩ => hfree old hold
      simp only [hdepth]
      split
      · exact .unsaved (by simp [Evicts, hno, hno']) ⟨hroom, hfree⟩
      · exact .filed
    · simp only [hdepth]
      exact .refused (by simp [Evicts, hno, hno']) fun h => h.2 old hold
    · simp only [hdepth]
      split
      · exact .evicted (Or.inr ⟨hroom, hev⟩) hlost
      · exact .filed
  · have hover := Nat.not_lt_of_le hfull
    simp only [hlevel]
    exact .refused (by simp [Evicts, hno, hover]) fun h => hover h.1
  · -- whatever the depth does, the template is gone
    simp only [hlevel]
    rcases checkDepth_cases o new s₁ with
      ⟨-, hdepth⟩ | ⟨-, -, e, hdepth⟩ | ⟨-, s₂, hdepth, hkeeps, -⟩ <;> simp only [hdepth]
    · split
      · exact .evicted (Or.inl hev) hlost
      · exact .filed
    · exact .evicted (Or.inl hev) (hlost.keeps fun key => by rw [cleanup_pool])
    · split
      · exact .evicted (Or.inl hev) (hlost.keeps hkeeps)
      · exact .filed

/-- A store with the pool of `s` is unchanged if its directories are. -/
theorem unchanged_iff (hpool : s'.pool = s.pool) : Unchanged s s' ↔ s'.dirs = s.dirs := by
  constructor
  · exact Unchanged.dirs
  · exact fun hdirs => ⟨fun key => by rw [hpool], hdirs⟩

/-- A template of key `key`. -/
def template (id key : String) (kind : SnapshotType) (createdAtSecs : ℕ) : PooledTemplate where
  id := id
  key := ⟨key⟩
  snapshotType := kind
  createdAtSecs := createdAtSecs

/-- Two keys with one template each, and a restore from that of `a` in flight. A key may have one
template, and the pool two; a third has its snapshot on disk. -/
def twoKeys : Store where
  pool :=
    { available := ((Queues.empty.pushBack ⟨"a"⟩ (template "t1" "a" .environment 1)).pushBack ⟨"b"⟩
        (template "t2" "b" .environment 2))
      inFlightRestores := Tally.empty.incr "t1"
      inUseCount := .empty
      inFlightRefills := .empty
      environmentMaxPerKey := 1
      warmforkMaxPerKey := 1
      gcWatermark := 2
      leaseMode := .shared
      reflinkSupported := true }
  dirs := [["environment", "t1"], ["environment", "t2"], ["environment", "t3"]]

end Kuasar.PoolAdd

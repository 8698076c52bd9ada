import Kuasar.Tla.Tasks
import Kuasar.Template.Pool

/-!
# Template.PoolTasks — the pool under any number of tasks

Every operation of the pool as a task: its lock-held sections and its file
system calls are one step each, and the steps of different tasks interleave in
any order. A task that took a template holds the lease until the restore
completes or fails; a task that chose templates to delete removes their
directories one by one, with no lock held, and drops each from the queues
afterwards.

Every step carries what the safety of deletions depends on: the id it takes a
pin, a reference or a lease on, or the batch a forced eviction chose.
`Step.spec` says once what a step can do; the invariants are derived from it.
-/

namespace Kuasar.PoolTasks

open TemplatePool

/-- What the tasks share: the pool, the template directories on disk, and the
type of every template id in use so far. Ids are fresh uuids. -/
structure Shared where
  pool : TemplatePool
  dirs : List StoreDir
  kinds : String → Option SnapshotType

namespace Shared

variable (s : Shared)

def queued : List PooledTemplate := s.pool.available.all

def ids : List String := s.queued.map (·.id)

/-- `remove_dir_all`: the directory is gone. -/
def removeDir (d : StoreDir) : Shared := { s with dirs := s.dirs.filter fun d' => d' ≠ d }

/-- The id of a template that was just made comes into use. -/
def register (t : PooledTemplate) (d : StoreDir) : Shared :=
  { s with
    dirs := d :: s.dirs
    kinds := fun id => if id = t.id then some t.snapshotType else s.kinds id }

end Shared

/-- The two checks of `add` that may evict a template. -/
inductive Stage where
  | waterLevel
  | maxPerKey
  deriving DecidableEq, Repr

/-- Where a task stands. `popped` says that the lease took its template out of the
pool. -/
inductive Pc where
  | idle
  | take (op : Take)
  | writeMarker (t : PooledTemplate)
  | putBack (t : PooledTemplate)
  | lease (t : PooledTemplate) (popped : Bool)
  | releaseMarker (t : PooledTemplate) (popped : Bool)
  | releasePush (t : PooledTemplate) (popped : Bool)
  | gcDepth
  | gcCollect (total : Nat)
  | sweep (batch : List PooledTemplate)
  | sweepDequeue (t : PooledTemplate) (rest : List PooledTemplate)
  | addLevel (new : PooledTemplate)
  | addPick (new : PooledTemplate) (total : Nat)
  | addEvict (new old : PooledTemplate) (stage : Stage)
  | addDequeue (new old : PooledTemplate) (stage : Stage)
  | addDepth (new : PooledTemplate)
  | addSave (new : PooledTemplate)
  | addPush (new : PooledTemplate)
  | addCleanup (new : PooledTemplate) (error : PoolError)

/-- What a step does that deletions must not collide with. -/
inductive Effect where
  | quiet
  | takes (id : String)
  | evicts (batch : List PooledTemplate)

/-- After a count was given back: the last one out runs the collection. -/
def afterGive (triggerGc : Bool) : Pc := if triggerGc then .gcDepth else .idle

/-- The error of `add` when it could not remove what it chose to evict. -/
def evictError (old : PooledTemplate) : Stage → PoolError
  | .waterLevel => .waterLevelEviction old.id
  | .maxPerKey => .eviction old.id

inductive Step : Effect → Shared → Pc → Shared → Pc → Prop where
  -- hash maps are iterated in no particular order
  | rehash {s l q} (h : s.pool.available.Rehashed q) :
      Step .quiet s l { s with pool := { s.pool with available := q } } l
  -- acquire_for_restore, acquire_by_id_for_restore and the direct calls: which
  -- section comes next was read in an earlier section and may be out of date
  | callTake {s} (op : Take) : Step .quiet s .idle s (.take op)
  | takeSome {s op t p} (h : s.pool.take op = some (t, p)) :
      Step (.takes t.id) s (.take op) { s with pool := p }
        (if op.pops then .writeMarker t else .lease t false)
  | takeNone {s op} (h : s.pool.take op = none) : Step .quiet s (.take op) s .idle
  -- acquire, acquire_by_id: the consumed marker
  | markerOk {s t d} (hd : templateDir t = some d)
      (hdir : d ∈ s.dirs) : Step .quiet s (.writeMarker t) s (.lease t true)
  | markerErr {s t} : Step .quiet s (.writeMarker t) s (.putBack t)
  | putBack {s t} : Step .quiet s (.putBack t) { s with pool := s.pool.pushBack t } .idle
  -- a restore from an Environment template that keeps its memory on disk
  | refTemplate {s t popped} (h : t.snapshotType = .environment) :
      Step (.takes t.id) s (.lease t popped) { s with pool := s.pool.refTemplate t.id }
        (.lease t popped)
  -- the end of a lease
  | leaseEnd {s t popped} (h : s.pool.leaseKind t = some .sharedLease) :
      Step .quiet s (.lease t popped) { s with pool := (s.pool.endRestore t.id).1 }
        (afterGive (s.pool.endRestore t.id).2)
  | leaseComplete {s t popped}
      (h : s.pool.leaseKind t ≠ some .sharedLease) : Step .quiet s (.lease t popped) s .idle
  | leaseFailRef {s t popped} (h : s.pool.leaseKind t = some .sharedRef) :
      Step .quiet s (.lease t popped) { s with pool := (s.pool.deref t.id).1 }
        (afterGive (s.pool.deref t.id).2)
  | leaseFailExclusive {s t popped} (h : s.pool.leaseKind t = some .exclusive) :
      Step .quiet s (.lease t popped) s (.releaseMarker t popped)
  | releaseMarker {s t popped} : Step .quiet s (.releaseMarker t popped) s (.releasePush t popped)
  | releasePush {s t popped} :
      Step .quiet s (.releasePush t popped) { s with pool := s.pool.pushBack t } .idle
  -- a sandbox drops its reference
  | callDeref {s} (id : String) :
      Step .quiet s .idle { s with pool := (s.pool.deref id).1 } (afterGive (s.pool.deref id).2)
  -- gc_if_needed
  | callGc {s} : Step .quiet s .idle s .gcDepth
  | gcBelow {s} (h : s.pool.totalDepth ≤ s.pool.gcWatermark) : Step .quiet s .gcDepth s .idle
  | gcAbove {s} (h : s.pool.gcWatermark < s.pool.totalDepth) :
      Step .quiet s .gcDepth s (.gcCollect s.pool.totalDepth)
  | gcCollect {s total} : Step .quiet s (.gcCollect total) s (.sweep (s.pool.gcBatch total))
  -- evict_by_kind, remove_by_id
  | callEvict {s} (kind : SnapshotType) (target : Nat) :
      Step (.evicts (s.pool.evictBatch kind target)) s .idle s
        (.sweep (s.pool.evictBatch kind target))
  | callRemove {s id kind t}
      (h : s.pool.removeByIdSelect id kind = .ok (some t)) : Step .quiet s .idle s (.sweep [t])
  -- the loop both collections and remove_by_id run over what they chose; a
  -- directory that is already gone counts as removed
  | sweepDone {s} : Step .quiet s (.sweep []) s .idle
  | sweepRemoved {s t rest d} (hd : templateDir t = some d) :
      Step .quiet s (.sweep (t :: rest)) (s.removeDir d) (.sweepDequeue t rest)
  | sweepKept {s t rest} : Step .quiet s (.sweep (t :: rest)) s (.sweep rest)
  | sweepDequeue {s t rest} :
      Step .quiet s (.sweepDequeue t rest) { s with pool := s.pool.dequeue t.id } (.sweep rest)
  -- add
  | callAdd {s new d} (hd : templateDir new = some d)
      (hfresh : s.kinds new.id = none) (hidle : s.pool.idle new = true) :
      Step .quiet s .idle (s.register new d) (.addLevel new)
  | addBelow {s new} (h : s.pool.totalDepth < s.pool.gcWatermark) :
      Step .quiet s (.addLevel new) s (.addDepth new)
  | addAbove {s new} (h : s.pool.gcWatermark ≤ s.pool.totalDepth) :
      Step .quiet s (.addLevel new) s (.addPick new s.pool.totalDepth)
  | addPickSome {s new old total} (h : s.pool.oldestCandidate = some old) :
      Step .quiet s (.addPick new total) s (.addEvict new old .waterLevel)
  | addPickNone {s new total} (h : s.pool.oldestCandidate = none) :
      Step .quiet s (.addPick new total) s
        (.addCleanup new (.waterLevel total s.pool.gcWatermark))
  | addEvicted {s new old stage d} (hd : templateDir old = some d) (hdir : d ∈ s.dirs) :
      Step .quiet s (.addEvict new old stage) (s.removeDir d) (.addDequeue new old stage)
  | addEvictErr {s new old stage} :
      Step .quiet s (.addEvict new old stage) s (.addCleanup new (evictError old stage))
  | addDequeueLevel {s new old} :
      Step .quiet s (.addDequeue new old .waterLevel) { s with pool := s.pool.dequeue old.id }
        (.addDepth new)
  | addDequeueDepth {s new old} :
      Step .quiet s (.addDequeue new old .maxPerKey)
        { s with pool := s.pool.dequeueFrom new.key old.id } (.addSave new)
  | addDepthBelow {s new} (h : s.pool.depthEviction new = none) :
      Step .quiet s (.addDepth new) s (.addSave new)
  | addDepthEvict {s new old} (h : s.pool.depthEviction new = some (old, true)) :
      Step .quiet s (.addDepth new) s (.addEvict new old .maxPerKey)
  | addDepthHeld {s new old max} (hmax : s.pool.kindMaxPerKey new.snapshotType = some max)
      (h : s.pool.depthEviction new = some (old, false)) :
      Step .quiet s (.addDepth new) s (.addCleanup new (.maxPerKey max new.key.key old.id))
  | addSaved {s new} : Step .quiet s (.addSave new) s (.addPush new)
  | addSaveErr {s new} : Step .quiet s (.addSave new) s .idle
  | addPush {s new} : Step .quiet s (.addPush new) { s with pool := s.pool.pushBack new } .idle
  | addCleaned {s new e d}
      (hd : templateDir new = some d) : Step .quiet s (.addCleanup new e) (s.removeDir d) .idle
  | addCleanErr {s new e} : Step .quiet s (.addCleanup new e) s .idle

/-! ## What a task holds -/

namespace Pc

/-- The templates the task has in hand. -/
@[simp] def mentions : Pc → List PooledTemplate
  | .writeMarker t => [t]
  | .putBack t => [t]
  | .lease t _ => [t]
  | .releaseMarker t _ => [t]
  | .releasePush t _ => [t]
  | .sweep batch => batch
  | .sweepDequeue t rest => t :: rest
  | .addLevel new => [new]
  | .addPick new _ => [new]
  | .addEvict new old _ => [new, old]
  | .addDequeue new old _ => [new, old]
  | .addDepth new => [new]
  | .addSave new => [new]
  | .addPush new => [new]
  | .addCleanup new _ => [new]
  | _ => []

/-- The template the task took out of the pool and has not given back: it is
exclusively leased to the task. -/
@[simp] def owned : Pc → Option PooledTemplate
  | .writeMarker t => some t
  | .putBack t => some t
  | .lease t true => some t
  | .releaseMarker t true => some t
  | .releasePush t true => some t
  | _ => none

/-- The template the task leases while the pool still has it. -/
@[simp] def borrowed : Pc → Option PooledTemplate
  | .lease t false => some t
  | .releaseMarker t false => some t
  | .releasePush t false => some t
  | _ => none

/-- The template the task is putting back after a failed exclusive restore. -/
@[simp] def returning : Pc → Option PooledTemplate
  | .releaseMarker t _ => some t
  | .releasePush t _ => some t
  | _ => none

/-- The templates the task chose to delete and whose directories still stand. -/
@[simp] def selected : Pc → List PooledTemplate
  | .sweep batch => batch
  | .sweepDequeue _ rest => rest
  | .addEvict _ old _ => [old]
  | _ => []

/-- The new template of an `add`, not yet in the pool. -/
@[simp] def adding : Pc → Option PooledTemplate
  | .addLevel new => some new
  | .addPick new _ => some new
  | .addEvict new _ _ => some new
  | .addDequeue new _ _ => some new
  | .addDepth new => some new
  | .addSave new => some new
  | .addPush new => some new
  | .addCleanup new _ => some new
  | _ => none

/-- The template the next step files in the pool. -/
@[simp] def pushes : Pc → Option PooledTemplate
  | .putBack t => some t
  | .releasePush t _ => some t
  | .addPush new => some new
  | _ => none

/-- The template whose directory the next step removes. -/
@[simp] def removes : Pc → Option PooledTemplate
  | .sweep (t :: _) => some t
  | .addEvict _ old _ => some old
  | .addCleanup new _ => some new
  | _ => none

end Pc

/-! ## What a step can do -/

/-- What a step of a task at `l` can do to the shared state. -/
structure SharedSpec (e : Effect) (s : Shared) (l : Pc) (s' : Shared) : Prop where
  leaseMode : s'.pool.leaseMode = s.pool.leaseMode
  kinds : ∀ id kind, s.kinds id = some kind → s'.kinds id = some kind
  /-- Only an Environment lease takes back a restore pin. -/
  unpin : ∀ id, s.pool.inFlightRestores.entry id ≠ none →
    s'.pool.inFlightRestores.entry id = none →
    ∃ t ∈ l.mentions, t.id = id ∧ t.snapshotType = .environment
  pin : ∀ t, s.pool.idle t = true → s'.pool.idle t = true ∨ e = .takes t.id
  taken : ∀ id, e = .takes id → ∃ t, t.id = id ∧ (t ∈ s.queued ∨ t ∈ l.mentions)
  queued : ∀ t ∈ s'.queued, t ∈ s.queued ∨ l.pushes = some t
  counted : ∀ id, s'.ids.count id ≤
    s.ids.count id + if l.pushes.map PooledTemplate.id = some id then 1 else 0

/-- What a step takes into the hands of its task. -/
structure TaskSpec (e : Effect) (s : Shared) (l : Pc) (s' : Shared) (l' : Pc) : Prop where
  mentions : ∀ t ∈ l'.mentions, t ∈ l.mentions ∨ t ∈ s.queued ∨
    (l'.adding = some t ∧ s.kinds t.id = none ∧ s'.kinds t.id = some t.snapshotType)
  selected : ∀ t ∈ l'.selected, t ∈ l.selected ∨
    (t ∈ s.queued ∧ s.pool.inFlightRestores.entry t.id = none ∧
      (s.pool.inUseCount.entry t.id = none ∨ ∃ batch, e = .evicts batch ∧ t ∈ batch))
  owned : ∀ t, l'.owned = some t → l.owned = some t ∨
    (e = .takes t.id ∧ t ∈ s.queued ∧ s'.ids.count t.id < s.ids.count t.id)
  borrowed : ∀ t, l'.borrowed = some t → l.borrowed = some t ∨
    (t ∈ s.queued ∧ (s'.pool.leaseMode = .shared ∨ s'.pool.inFlightRestores.entry t.id ≠ none))
  returning : ∀ t, l'.returning = some t → l.returning = some t ∨
    (t.snapshotType = .warmFork ∧ s.pool.leaseMode ≠ .shared)
  adding : ∀ t, l'.adding = some t → l.adding = some t ∨
    (s.kinds t.id = none ∧ s.pool.idle t = true)
  pushed : l.pushes ≠ none → l' = .idle ∨ ∀ t ∈ s'.queued, t ∈ s.queued
  taking : ∀ id, e = .takes id → l'.selected = [] ∧ l'.adding = none

variable {e : Effect} {s s' : Shared} {l l' : Pc} {p : TemplatePool} {t new : PooledTemplate}

namespace SharedSpec

theorem of_pool_eq (hp : s'.pool = s.pool)
    (hk : ∀ id kind, s.kinds id = some kind → s'.kinds id = some kind)
    (he : ∀ id, e ≠ .takes id) : SharedSpec e s l s' where
  leaseMode := by rw [hp]
  kinds := hk
  unpin id h h' := absurd (hp ▸ h') h
  pin t ht := Or.inl (by rw [hp]; exact ht)
  taken id h := absurd h (he id)
  queued t ht := Or.inl (by rw [Shared.queued, hp] at ht; exact ht)
  counted id := by
    unfold Shared.ids Shared.queued
    rw [hp]
    exact Nat.le_add_right _ _

/-- A step that only takes templates out of the queues, or reorders them. -/
theorem of_subperm {q : Queues TemplateKey PooledTemplate} (h : q.all.Subperm s.queued)
    (ht : ∀ id, e = .takes id → ∃ t, t.id = id ∧ (t ∈ s.queued ∨ t ∈ l.mentions)) :
    SharedSpec e s l { s with pool := { s.pool with available := q } } where
  leaseMode := rfl
  kinds _ _ h := h
  unpin id h h' := absurd h' h
  pin t ht := Or.inl ht
  taken := ht
  queued t ht := Or.inl (h.subset ht)
  counted id := by
    obtain ⟨r, hperm, hsub⟩ := h
    have hq := (hperm.map PooledTemplate.id).count_eq id
    exact (hq.symm.le.trans ((hsub.map _).count_le id)).trans (Nat.le_add_right _ _)

/-- A step that files the template it pushes. -/
theorem of_push (hl : l.pushes = some t) (he : ∀ id, e ≠ .takes id) :
    SharedSpec e s l { s with pool := s.pool.pushBack t } where
  leaseMode := rfl
  kinds _ _ h := h
  unpin id h h' := absurd h' h
  pin t ht := Or.inl ht
  taken id h := absurd h (he id)
  queued u hu := by
    rcases List.mem_cons.mp (Queues.all_pushBack_perm.mem_iff.mp hu) with rfl | h
    · exact Or.inr hl
    · exact Or.inl h
  counted id := by
    have hperm : (s.pool.pushBack t).available.all.Perm (t :: s.queued) := Queues.all_pushBack_perm
    have hcount := (hperm.map PooledTemplate.id).count_eq id
    rw [List.map_cons, List.count_cons] at hcount
    simp only [hl, Option.map_some, Option.some.injEq]
    simpa [Shared.ids, Shared.queued] using hcount.le

/-- A step that counts `id` up, as a restore or as a reference. -/
theorem of_incr {p : TemplatePool} (hq : p.available = s.pool.available)
    (hm : p.leaseMode = s.pool.leaseMode)
    (hr : ∀ id, s.pool.inFlightRestores.entry id ≠ none → p.inFlightRestores.entry id ≠ none)
    (hp : ∀ u : PooledTemplate, u.id ≠ t.id → s.pool.idle u = true → p.idle u = true)
    (ht : t ∈ s.queued ∨ t ∈ l.mentions) : SharedSpec (.takes t.id) s l { s with pool := p } where
  leaseMode := hm
  kinds _ _ h := h
  unpin id h h' := absurd h' (hr id h)
  pin u hu := by
    by_cases hut : u.id = t.id
    · exact Or.inr (by rw [hut])
    · exact Or.inl (hp u hut hu)
  taken id h := ⟨t, Effect.takes.inj h, ht⟩
  queued u hu := Or.inl (by simpa only [Shared.queued, hq] using hu)
  counted id := by
    simp only [Shared.ids, Shared.queued, hq]
    exact Nat.le_add_right _ _

theorem of_incrRestores (ht : t ∈ s.queued ∨ t ∈ l.mentions) :
    SharedSpec (.takes t.id) s l
      { s with pool := { s.pool with
          inFlightRestores := s.pool.inFlightRestores.incr t.id } } := by
  refine of_incr rfl rfl ?_ ?_ ht
  · intro id h h'
    exact h (Tally.incr_eq_none.mp h').2
  · intro u hut hu
    rw [idle_iff] at hu ⊢
    exact ⟨Tally.incr_eq_none.mpr ⟨hut, hu.1⟩, hu.2⟩

theorem of_incrCount (ht : t ∈ s.queued ∨ t ∈ l.mentions) :
    SharedSpec (.takes t.id) s l { s with pool := s.pool.refTemplate t.id } := by
  refine of_incr (p := s.pool.refTemplate t.id) rfl rfl (fun _ h => h) ?_ ht
  intro u hut hu
  rw [idle_iff] at hu ⊢
  exact ⟨hu.1, Tally.incr_eq_none.mpr ⟨hut, hu.2⟩⟩

theorem of_endRestore (ht : t ∈ l.mentions) (hkind : t.snapshotType = .environment)
    (he : ∀ id, e ≠ .takes id) :
    SharedSpec e s l { s with pool := (s.pool.endRestore t.id).1 } where
  leaseMode := rfl
  kinds _ _ h := h
  unpin id h h' := by
    by_cases hid : id = t.id
    · exact ⟨t, ht, hid.symm, hkind⟩
    · exact absurd ((Tally.decr_ne hid).symm.trans h') h
  pin u hu := by
    rw [idle_iff] at hu
    exact Or.inl (idle_iff.mpr ⟨Tally.decr_of_none hu.1, hu.2⟩)
  taken id h := absurd h (he id)
  queued u hu := Or.inl hu
  counted id := Nat.le_add_right _ _

theorem of_deref (id : String) (he : ∀ id, e ≠ .takes id) :
    SharedSpec e s l { s with pool := (s.pool.deref id).1 } where
  leaseMode := rfl
  kinds _ _ h := h
  unpin id h h' := absurd h' h
  pin u hu := by
    rw [idle_iff] at hu
    exact Or.inl (idle_iff.mpr ⟨hu.1, Tally.decr_of_none hu.2⟩)
  taken id h := absurd h (he id)
  queued u hu := Or.inl hu
  counted id := Nat.le_add_right _ _

end SharedSpec

theorem leaseKind_sharedLease (h : p.leaseKind t = some .sharedLease) :
    t.snapshotType = .environment := by
  unfold leaseKind at h
  split at h
  · assumption
  · split at h <;> simp at h
  · simp at h

theorem leaseKind_exclusive (h : p.leaseKind t = some .exclusive) :
    t.snapshotType = .warmFork ∧ p.leaseMode ≠ .shared := by
  unfold leaseKind at h
  split at h
  · simp at h
  · rename_i hkind
    split at h
    · simp at h
    · rename_i hmode
      exact ⟨hkind, hmode⟩
  · simp at h

theorem Step.sharedSpec (h : Step e s l s' l') : SharedSpec e s l s' := by
  cases h with
  | rehash h => exact .of_subperm h.all_perm.symm.subperm (by simp)
  | takeSome h =>
    obtain ⟨hmem, htaken⟩ := take_spec h
    cases htaken with
    | pinned => exact .of_incrRestores (Or.inl hmem)
    | referenced => exact .of_incrCount (Or.inl hmem)
    | popped _ hperm =>
      apply SharedSpec.of_subperm
      · exact ((List.sublist_cons_self _ _).subperm).trans hperm.symm.subperm
      · intro id hid
        exact ⟨_, Effect.takes.inj hid, Or.inl hmem⟩
  | putBack | releasePush | addPush => exact .of_push rfl (by simp)
  | refTemplate => exact .of_incrCount (Or.inr (by simp))
  | leaseEnd h =>
    exact .of_endRestore (by simp) (leaseKind_sharedLease h) (by simp)
  | leaseFailRef => exact .of_deref _ (by simp)
  | callDeref id => exact .of_deref id (by simp)
  | sweepDequeue | addDequeueLevel => exact .of_subperm (Queues.shrinks_retain _).all (by simp)
  | @callAdd _ new d _ hfresh =>
    refine .of_pool_eq rfl ?_ (by simp)
    intro id kind hk
    have hne : id ≠ new.id := fun hid => absurd (hid ▸ hk) (by simp [hfresh])
    simpa [Shared.register, hne] using hk
  | addDequeueDepth =>
    exact .of_subperm (Queues.shrinks_adjust fun _ => List.filter_sublist).all (by simp)
  -- the other steps do not touch the pool
  | _ => exact .of_pool_eq rfl (fun _ _ h => h) (by simp)

theorem TaskSpec.of_bare (hl' : l' = .idle ∨ l' = .gcDepth) (hl : l.pushes = none ∨ l' = .idle)
    (he : ∀ id, e ≠ .takes id) : TaskSpec e s l s' l' := by
  have hpush : l.pushes ≠ none → l' = .idle ∨ ∀ t ∈ s'.queued, t ∈ s.queued := fun h =>
    Or.inl (hl.resolve_left h)
  rcases hl' with rfl | rfl <;> refine ⟨?_, ?_, ?_, ?_, ?_, ?_, hpush, ?_⟩ <;> simp [he]

theorem afterGive_eq (b : Bool) : afterGive b = .idle ∨ afterGive b = .gcDepth := by
  cases b <;> simp [afterGive]

theorem TaskSpec.of_choice {batch : List PooledTemplate} (hl : l.pushes = none)
    (hq : ∀ t ∈ batch, t ∈ s.queued) (hr : ∀ t ∈ batch, s.pool.inFlightRestores.entry t.id = none)
    (hc : ∀ t ∈ batch, s.pool.inUseCount.entry t.id = none ∨ ∃ batch, e = .evicts batch ∧ t ∈ batch)
    (he : ∀ id, e ≠ .takes id) : TaskSpec e s l s (.sweep batch) where
  mentions t ht := Or.inr (Or.inl (hq t ht))
  selected t ht := Or.inr ⟨hq t ht, hr t ht, hc t ht⟩
  owned t ht := absurd ht (by simp)
  borrowed t ht := absurd ht (by simp)
  returning t ht := absurd ht (by simp)
  adding t ht := absurd ht (by simp)
  pushed h := absurd hl h
  taking id h := absurd h (he id)

/-- The choice of one template by `add`. -/
theorem TaskSpec.of_addChoice {new old : PooledTemplate} {stage : Stage} (hl : l.pushes = none)
    (hadd : l.adding = some new) (hnew : new ∈ l.mentions)
    (hold : old ∈ s.queued ∧ s.pool.idle old = true) :
    TaskSpec .quiet s l s (.addEvict new old stage) where
  mentions t ht := by
    simp only [Pc.mentions, List.mem_cons, List.not_mem_nil, or_false] at ht
    rcases ht with rfl | rfl
    · exact Or.inl hnew
    · exact Or.inr (Or.inl hold.1)
  selected t ht := by
    simp only [Pc.selected, List.mem_singleton] at ht
    subst ht
    have hidle := idle_iff.mp hold.2
    exact Or.inr ⟨hold.1, hidle.1, Or.inl hidle.2⟩
  owned t ht := absurd ht (by simp)
  borrowed t ht := absurd ht (by simp)
  returning t ht := absurd ht (by simp)
  adding t ht := Or.inl (hadd.trans ht)
  pushed h := absurd hl h
  taking id h := absurd h (by simp)

theorem TaskSpec.of_take {op : Take} (h : s.pool.take op = some (t, p)) :
    TaskSpec (.takes t.id) s (.take op) { s with pool := p }
      (if op.pops then .writeMarker t else .lease t false) := by
  obtain ⟨hmem, htaken⟩ := take_spec h
  have hmem' : t ∈ s.queued := hmem
  cases htaken with
  | pinned hpop =>
    rw [hpop]
    constructor <;> simp [hmem', Tally.incr_self]
  | referenced hpop hmode =>
    rw [hpop]
    constructor <;> simp [hmem', hmode]
  | @popped q hpop hperm =>
    have hcount := (hperm.map PooledTemplate.id).count_eq t.id
    rw [List.map_cons, List.count_cons_self] at hcount
    have hlt : (Shared.ids { s with pool := { s.pool with available := q } }).count t.id <
        s.ids.count t.id := by
      rw [Shared.ids, Shared.ids, Shared.queued, Shared.queued, hcount]
      exact Nat.lt_succ_self _
    rw [hpop]
    constructor <;> simp [hmem', hlt]

theorem Step.taskSpec (h : Step e s l s' l') : TaskSpec e s l s' l' := by
  cases h with
  | takeSome h => exact .of_take h
  | gcCollect =>
    apply TaskSpec.of_choice rfl
    · exact fun t ht => (mem_gcBatch ht).1
    · exact fun t ht => (idle_iff.mp (mem_gcBatch ht).2).1
    · exact fun t ht => Or.inl (idle_iff.mp (mem_gcBatch ht).2).2
    · simp
  | callEvict kind target =>
    apply TaskSpec.of_choice rfl
    · exact fun t ht => (mem_evictBatch ht).1
    · exact fun t ht => (mem_evictBatch ht).2
    · exact fun t ht => Or.inr ⟨_, rfl, ht⟩
    · simp
  | @callRemove _ id kind t h =>
    have ht := removeByIdSelect_some h
    have hidle := idle_iff.mp ht.2
    apply TaskSpec.of_choice rfl
    · exact fun u hu => List.mem_singleton.mp hu ▸ ht.1
    · exact fun u hu => List.mem_singleton.mp hu ▸ hidle.1
    · exact fun u hu => Or.inl (List.mem_singleton.mp hu ▸ hidle.2)
    · simp
  | addPickSome h =>
    exact .of_addChoice rfl rfl (by simp) (oldestCandidate_some h)
  | addDepthEvict h =>
    exact .of_addChoice rfl rfl (by simp) (depthEviction_some h)
  | leaseFailExclusive h =>
    have hw := leaseKind_exclusive h
    rename_i t popped
    cases popped <;> constructor <;> simp [hw]
  | callAdd hd hfresh hidle =>
    constructor <;> simp [Shared.register, hfresh, hidle]
  | rehash h =>
    refine ⟨fun _ ht => Or.inl ht, fun _ ht => Or.inl ht, fun _ ht => Or.inl ht,
      fun _ ht => Or.inl ht, fun _ ht => Or.inl ht, fun _ ht => Or.inl ht, ?_, by simp⟩
    exact fun _ => Or.inr fun t ht => h.all_perm.mem_iff.mpr ht
  | leaseEnd | leaseFailRef | callDeref => exact .of_bare (afterGive_eq _) (Or.inl rfl) (by simp)
  | @refTemplate _ t popped | @releaseMarker _ t popped =>
    cases popped <;> constructor <;> simp
  -- the other steps take nothing new in hand
  | _ => constructor <;> simp +contextual

/-- The queues lose elements, or get the template that the task files. -/
theorem Step.queues (h : Step e s l s' l') :
    s.pool.available.Shrinks s'.pool.available ∨
      ∃ t, l.pushes = some t ∧ l' = .idle ∧ s'.pool = s.pool.pushBack t := by
  cases h with
  | rehash h => exact Or.inl h.shrinks
  | takeSome h => exact Or.inl (take_shrinks h)
  | putBack | releasePush | addPush => exact Or.inr ⟨_, rfl, rfl, rfl⟩
  | sweepDequeue | addDequeueLevel => exact Or.inl (Queues.shrinks_retain _)
  | addDequeueDepth => exact Or.inl (Queues.shrinks_adjust fun _ => List.filter_sublist)
  | _ => exact Or.inl (.refl _)

/-- An `add` begins with its call. -/
theorem Step.adding_cases (h : Step e s l s' l') (hadd : l'.adding = some new) :
    l.adding = some new ∨ (l = .idle ∧ l' = .addLevel new) := by
  cases h with
  | takeSome =>
    split at hadd <;> simp at hadd
  | leaseEnd | leaseFailRef | callDeref =>
    rcases afterGive_eq _ with h | h <;> rw [h] at hadd <;> simp at hadd
  | callAdd => exact Or.inr ⟨rfl, by simpa using hadd⟩
  | _ => simp_all

theorem mem_mentions_of_pushes (h : l.pushes = some t) : t ∈ l.mentions := by
  cases l <;> simp_all

/-- Templates filed by the kind of their key stay so if those in hand are. -/
theorem Step.filed {kindOf : TemplateKey → SnapshotType} (h : Step e s l s' l')
    (hp : Filed kindOf s.pool) (hl : ∀ t ∈ l.mentions, t.snapshotType = kindOf t.key) :
    Filed kindOf s'.pool := by
  rcases h.queues with hshrinks | ⟨t, hpush, -, hpool⟩
  · exact hp.shrinks hshrinks
  · rw [hpool]
    exact hp.pushBack (hl t (mem_mentions_of_pushes hpush))

theorem mem_mentions_of_adding (h : l.adding = some t) : t ∈ l.mentions := by
  cases l <;> simp_all

/-- What holds of the queued templates, of those in hand and of the new ones holds of what
the task has in hand next. -/
theorem Step.mentions_all {P : PooledTemplate → Prop} (h : Step e s l s' l')
    (hq : ∀ t ∈ s.queued, P t) (hl : ∀ t ∈ l.mentions, P t)
    (hnew : ∀ new, l = .idle → l' = .addLevel new → P new) : ∀ t ∈ l'.mentions, P t := by
  intro t ht
  rcases h.taskSpec.mentions t ht with hold | hqueued | ⟨hadd, -, -⟩
  · exact hl t hold
  · exact hq t hqueued
  · rcases h.adding_cases hadd with hold | ⟨hidle, hgoal⟩
    · exact hl t (mem_mentions_of_adding hold)
    · exact hnew t hidle hgoal

theorem Step.limits (h : Step e s l s' l') :
    s'.pool.gcWatermark = s.pool.gcWatermark ∧
      ∀ kind, s'.pool.kindMaxPerKey kind = s.pool.kindMaxPerKey kind := by
  cases h with
  | takeSome h =>
    obtain ⟨-, htaken⟩ := take_spec h
    cases htaken <;> exact ⟨rfl, fun _ => rfl⟩
  | _ => exact ⟨rfl, fun _ => rfl⟩

end Kuasar.PoolTasks

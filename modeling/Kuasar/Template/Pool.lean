import Kuasar.Data.Tally
import Kuasar.Data.Queues
import Kuasar.Template.Types

/-!
# Template.Pool — the template pool, section by section

The pool keeps its idle templates in one queue per key and counts, per template
id, the restores in flight and the references of running sandboxes. Each of the
collections sits behind a lock of its own. An operation of the pool is a few
sections that hold locks, with file system calls between them; another task can
run wherever no lock is held.

Each definition below is one section: a function of the pool as it is found when
the locks are taken. The operations of the pool are assembled from them in two
ways, as steps that other tasks interleave with and as the sequential calls of
one start.
-/

namespace Kuasar

/-- The pool: the idle templates by key, the counters by template id, and the
configured limits. `gcWatermark` bounds the templates over all keys. -/
structure TemplatePool where
  available : Queues TemplateKey PooledTemplate
  inFlightRestores : Tally String
  inUseCount : Tally String
  inFlightRefills : Tally TemplateKey
  environmentMaxPerKey : Nat
  warmforkMaxPerKey : Nat
  gcWatermark : Nat
  leaseMode : TemplateLeaseMode
  reflinkSupported : Bool

/-- A directory of the store, below `store_dir`. -/
abbrev StoreDir := List String

/-- Where a template lives on disk. The pool has no place for a continuation:
the source panics there. -/
def templateDir (t : PooledTemplate) : Option StoreDir :=
  match t.snapshotType with
  | .environment => some ["environment", t.id]
  | .warmFork => some ["warmfork", t.id]
  | .continuation => none

theorem templateDir_id {t u : PooledTemplate} {d : StoreDir} (ht : templateDir t = some d)
    (hu : templateDir u = some d) : t.id = u.id := by
  have h : templateDir t = templateDir u := ht.trans hu.symm
  unfold templateDir at h ht
  rcases hkt : t.snapshotType with _ | _ | _ <;> rcases hku : u.snapshotType with _ | _ | _ <;>
    simp_all

inductive RestoreLeaseKind where
  | sharedLease
  | sharedRef
  | exclusive
  deriving DecidableEq, Repr

namespace TemplatePool

variable (p : TemplatePool)

/-- The kind of a new lease. It goes by the template's own type and the pool's
mode, whichever way the template was taken. -/
def leaseKind (t : PooledTemplate) : Option RestoreLeaseKind :=
  match t.snapshotType with
  | .environment => some .sharedLease
  | .warmFork => if p.leaseMode = .shared then some .sharedRef else some .exclusive
  | .continuation => none

/-! ## Reading the queues -/

/-- The latest template of `key`. -/
def latest (key : TemplateKey) : Option PooledTemplate := (p.available.queue key).getLast?

/-- The first template with this id, in iteration order. -/
def findById (id : String) : Option PooledTemplate := p.available.all.find? fun t => t.id == id

/-- The number of idle templates over all keys. -/
def totalDepth : Nat := p.available.size

/-! ## Taking a template -/

/-- Pin the latest template of `key` for a restore; it stays in the pool. -/
def peekLatestForRestore (key : TemplateKey) : Option (PooledTemplate × TemplatePool) :=
  (p.latest key).map fun t =>
    (t, { p with inFlightRestores := p.inFlightRestores.incr t.id })

def peekByIdForRestore (id : String) : Option (PooledTemplate × TemplatePool) :=
  (p.findById id).map fun t =>
    (t, { p with inFlightRestores := p.inFlightRestores.incr t.id })

/-- Count a reference on a template that was found. A pool that is not in shared
mode hands out no references. -/
def takeRef (found : Option PooledTemplate) : Option (PooledTemplate × TemplatePool) :=
  match found with
  | none => none
  | some t =>
    if p.leaseMode ≠ .shared then none
    else some (t, { p with inUseCount := p.inUseCount.incr t.id })

/-- Reference the latest template of `key`. -/
def peekWithRef (key : TemplateKey) : Option (PooledTemplate × TemplatePool) :=
  p.takeRef (p.latest key)

def peekByIdWithRef (id : String) : Option (PooledTemplate × TemplatePool) :=
  p.takeRef (p.findById id)

/-- The first section of `acquire`: take the latest template of `key` out. -/
def acquirePop (key : TemplateKey) : Option (PooledTemplate × TemplatePool) :=
  (p.available.popBack key).map fun r => (r.1, { p with available := r.2 })

/-- The first section of `acquire_by_id`: take the template with this id out. -/
def acquireByIdPop (id : String) : Option (PooledTemplate × TemplatePool) :=
  (p.available.removeFirst fun t => t.id == id).map fun r => (r.1, { p with available := r.2 })

/-- The last section of `release`, of a failed `acquire` and of `add`: file the
template under its own key. -/
def pushBack (t : PooledTemplate) : TemplatePool :=
  { p with available := p.available.pushBack t.key t }

/-! ## Giving back

The decremented pool comes with whether the last count went, which triggers the
water-level collection. -/

/-- The restore of `id` ended. -/
def endRestore (id : String) : TemplatePool × Bool :=
  ({ p with inFlightRestores := p.inFlightRestores.decr id }, p.inFlightRestores.lastOut id)

/-- A reference on `id` is dropped. -/
def deref (id : String) : TemplatePool × Bool :=
  ({ p with inUseCount := p.inUseCount.decr id }, p.inUseCount.lastOut id)

/-- A running sandbox keeps its template pinned. -/
def refTemplate (id : String) : TemplatePool :=
  { p with inUseCount := p.inUseCount.incr id }

/-! ## Choosing what to delete -/

/-- No restore from the template is in flight and no sandbox references it. -/
def idle (t : PooledTemplate) : Bool :=
  (p.inFlightRestores.entry t.id).isNone && (p.inUseCount.entry t.id).isNone

/-- What the water-level collection may delete: idle templates, except WarmFork
templates of a pool that lends them exclusively. -/
def gcCandidates : List PooledTemplate :=
  p.available.all.filter fun t =>
    p.idle t && !(t.snapshotType == .warmFork && p.leaseMode != .shared)

/-- The templates the collection deletes when it counted `total` templates. -/
def gcBatch (total : Nat) : List PooledTemplate :=
  (sortByCreation p.gcCandidates).take (total - p.gcWatermark)

/-- What a forced eviction of one kind may delete. References to WarmFork
templates hold it back in a shared pool only. -/
def evictCandidates (kind : SnapshotType) : List PooledTemplate :=
  p.available.all.filter fun t =>
    if t.snapshotType ≠ kind ∨ (p.inFlightRestores.entry t.id).isSome then false
    else
      match t.snapshotType with
      | .environment => (p.inUseCount.entry t.id).isNone
      | .warmFork => p.leaseMode != .shared || (p.inUseCount.entry t.id).isNone
      | .continuation => false

/-- The templates a forced eviction deletes, to leave `targetDepth` candidates. -/
def evictBatch (kind : SnapshotType) (targetDepth : Nat) : List PooledTemplate :=
  (sortByCreation (p.evictCandidates kind)).take ((p.evictCandidates kind).length - targetDepth)

/-- Why `remove_by_id` and `add` refuse. -/
inductive PoolError where
  | kindMismatch (id : String) (kind expected : SnapshotType)
  | beingRestored (id : String)
  | inUse (id : String)
  | waterLevel (total gcWatermark : Nat)
  | waterLevelEviction (id : String)
  | maxPerKey (max : Nat) (key : String) (oldest : String)
  | eviction (id : String)
  deriving DecidableEq, Repr

/-- The checks of `remove_by_id`: the template to delete, or nothing if the pool
does not have it. -/
def removeByIdSelect (id : String) (expectedKind : SnapshotType) :
    Except PoolError (Option PooledTemplate) :=
  match p.findById id with
  | none => .ok none
  | some t =>
    if t.snapshotType ≠ expectedKind then .error (.kindMismatch id t.snapshotType expectedKind)
    else if (p.inFlightRestores.entry t.id).isSome then .error (.beingRestored id)
    else if (p.inUseCount.entry t.id).isSome then .error (.inUse id)
    else .ok (some t)

/-- What `add` may evict at the water level. -/
def levelEvictable (t : PooledTemplate) : Bool :=
  if (p.inFlightRestores.entry t.id).isSome then false
  else
    match t.snapshotType with
    | .environment => (p.inUseCount.entry t.id).isNone
    | .warmFork => p.leaseMode == .shared && (p.inUseCount.entry t.id).isNone
    | .continuation => false

/-- One step of the scan for the oldest evictable template: the first of the
oldest wins. -/
def older (candidate : Option PooledTemplate) (t : PooledTemplate) : Option PooledTemplate :=
  match candidate with
  | none => some t
  | some o => if t.createdAtSecs < o.createdAtSecs then some t else some o

/-- What `add` evicts at the water level. -/
def oldestCandidate : Option PooledTemplate :=
  (p.available.all.filter p.levelEvictable).foldl older none

def kindMaxPerKey (kind : SnapshotType) : Option Nat :=
  match kind with
  | .environment => some p.environmentMaxPerKey
  | .warmFork => some p.warmforkMaxPerKey
  | .continuation => none

/-- What `add` evicts from a key that is full: the oldest entry of its queue, if
it is idle. -/
def depthEviction (new : PooledTemplate) : Option (PooledTemplate × Bool) :=
  match p.kindMaxPerKey new.snapshotType with
  | none => none
  | some max =>
    if max ≤ (p.available.queue new.key).length then
      (p.available.queue new.key).head?.map fun t => (t, p.idle t)
    else none

/-- Drop every entry with this id. -/
def dequeue (id : String) : TemplatePool :=
  { p with available := p.available.retain fun t => t.id != id }

/-- Drop every entry with this id from the queue of one key. -/
def dequeueFrom (key : TemplateKey) (id : String) : TemplatePool :=
  { p with available := p.available.adjust key fun q => q.filter fun t => t.id != id }

/-! ## What the choices guarantee -/

variable {p : TemplatePool} {t u : PooledTemplate} {key : TemplateKey} {id : String}

theorem idle_iff :
    p.idle t = true ↔ p.inFlightRestores.entry t.id = none ∧ p.inUseCount.entry t.id = none := by
  simp [idle]

theorem mem_of_latest (h : p.latest key = some t) : t ∈ p.available.all :=
  Queues.mem_all_of_mem_queue (List.mem_of_getLast? h)

theorem mem_of_findById (h : p.findById id = some t) : t ∈ p.available.all ∧ t.id = id := by
  refine ⟨List.mem_of_find?_eq_some h, ?_⟩
  simpa using List.find?_some h

theorem mem_gcBatch {total : Nat} (h : t ∈ p.gcBatch total) :
    t ∈ p.available.all ∧ p.idle t = true := by
  have hc := mem_of_mem_take_sortByCreation h
  unfold gcCandidates at hc
  rw [List.mem_filter, Bool.and_eq_true] at hc
  exact ⟨hc.1, hc.2.1⟩

variable {kind : SnapshotType} {new : PooledTemplate}

theorem mem_evictCandidates (h : t ∈ p.evictCandidates kind) :
    t ∈ p.available.all ∧ t.snapshotType = kind ∧ p.inFlightRestores.entry t.id = none := by
  unfold evictCandidates at h
  rw [List.mem_filter] at h
  refine ⟨h.1, ?_⟩
  by_cases hk : t.snapshotType ≠ kind ∨ (p.inFlightRestores.entry t.id).isSome
  · simp [hk] at h
  · rw [not_or] at hk
    exact ⟨not_not.mp hk.1, by simpa using hk.2⟩

theorem mem_evictBatch {target : Nat} (h : t ∈ p.evictBatch kind target) :
    t ∈ p.available.all ∧ p.inFlightRestores.entry t.id = none := by
  obtain ⟨hq, -, hpin⟩ := mem_evictCandidates (mem_of_mem_take_sortByCreation h)
  exact ⟨hq, hpin⟩

theorem removeByIdSelect_some (h : p.removeByIdSelect id kind = .ok (some t)) :
    t ∈ p.available.all ∧ p.idle t = true := by
  unfold removeByIdSelect at h
  split at h
  · simp at h
  · rename_i u hu
    split at h
    · simp at h
    split at h
    · simp at h
    split at h
    · simp at h
    rename_i hr hc
    simp only [Except.ok.injEq, Option.some.injEq] at h
    subst h
    refine ⟨(mem_of_findById hu).1, ?_⟩
    exact idle_iff.mpr ⟨by simpa using hr, by simpa using hc⟩

theorem levelEvictable_idle (h : p.levelEvictable t = true) : p.idle t = true := by
  unfold levelEvictable at h
  rw [idle_iff]
  split at h
  · simp at h
  rename_i hr
  refine ⟨by simpa using hr, ?_⟩
  split at h
  · simpa using h
  · simp only [Bool.and_eq_true] at h
    simpa using h.2
  · simp at h

theorem foldl_older_mem {ts : List PooledTemplate} {c : Option PooledTemplate}
    (h : ts.foldl older c = some t) : c = some t ∨ t ∈ ts := by
  induction ts generalizing c with
  | nil => exact Or.inl h
  | cons u ts ih =>
    rcases ih h with hc | hts
    · unfold older at hc
      split at hc
      · exact Or.inr (by simp [Option.some.inj hc])
      · split at hc
        · exact Or.inr (by simp [Option.some.inj hc])
        · exact Or.inl hc
    · exact Or.inr (List.mem_cons_of_mem _ hts)

theorem oldestCandidate_some (h : p.oldestCandidate = some t) :
    t ∈ p.available.all ∧ p.idle t = true := by
  rcases foldl_older_mem h with hn | hm
  · exact absurd hn (by simp)
  · rw [List.mem_filter] at hm
    exact ⟨hm.1, levelEvictable_idle hm.2⟩

/-- A key that is full gives up the head of its queue, if that is idle. -/
theorem depthEviction_eq_some_iff {canEvict : Bool} :
    p.depthEviction new = some (t, canEvict) ↔
      ∃ max, p.kindMaxPerKey new.snapshotType = some max ∧
        max ≤ (p.available.queue new.key).length ∧
        (p.available.queue new.key).head? = some t ∧ p.idle t = canEvict := by
  unfold depthEviction
  rcases p.kindMaxPerKey new.snapshotType with _ | max
  · simp
  · dsimp only
    by_cases hfull : max ≤ (p.available.queue new.key).length
    · rw [if_pos hfull, Option.map_eq_some_iff]
      constructor
      · rintro ⟨u, hu, heq⟩
        obtain ⟨rfl, rfl⟩ := Prod.mk.inj heq
        exact ⟨max, rfl, hfull, hu, rfl⟩
      · rintro ⟨_, -, -, ht, rfl⟩
        exact ⟨t, ht, rfl⟩
    · rw [if_neg hfull]
      constructor
      · rintro ⟨⟩
      · rintro ⟨max', hmax, hfull', -⟩
        cases hmax
        exact absurd hfull' hfull

theorem depthEviction_mem {canEvict : Bool} (h : p.depthEviction new = some (t, canEvict)) :
    t ∈ p.available.queue new.key := by
  obtain ⟨_, -, -, ht, -⟩ := depthEviction_eq_some_iff.mp h
  exact List.mem_of_head? ht

theorem depthEviction_some (h : p.depthEviction new = some (t, true)) :
    t ∈ p.available.all ∧ p.idle t = true := by
  obtain ⟨_, -, -, -, hidle⟩ := depthEviction_eq_some_iff.mp h
  exact ⟨Queues.mem_all_of_mem_queue (depthEviction_mem h), hidle⟩

/-! ## Filing several templates -/

theorem foldl_pushBack_perm (p : TemplatePool) (ts : List PooledTemplate) :
    (ts.foldl pushBack p).available.all.Perm (ts ++ p.available.all) := by
  induction ts generalizing p with
  | nil => exact .refl _
  | cons t ts ih =>
    -- the template is filed first, and the rest in front of it
    have hpush : (p.pushBack t).available.all.Perm (t :: p.available.all) :=
      Queues.all_pushBack_perm
    exact ((ih (p.pushBack t)).trans (hpush.append_left ts)).trans List.perm_middle

/-- The queue of a key gets the templates of the key in the order in which they are filed. -/
theorem foldl_pushBack_queue (p : TemplatePool) (ts : List PooledTemplate) (key : TemplateKey) :
    (ts.foldl pushBack p).available.queue key =
      p.available.queue key ++ ts.filter (·.key = key) := by
  induction ts generalizing p with
  | nil => exact (List.append_nil _).symm
  | cons t ts ih =>
    rw [List.foldl_cons, ih, pushBack, Queues.queue_pushBack]
    by_cases hkey : key = t.key
    · simp [hkey]
    · have hkey' : t.key ≠ key := fun h => hkey h.symm
      simp [hkey, hkey']

/-- Every template is filed under its own key, and has the kind that `kindOf` gives the
key. -/
def Filed (kindOf : TemplateKey → SnapshotType) (p : TemplatePool) : Prop :=
  ∀ key, ∀ t ∈ p.available.queue key, t.key = key ∧ t.snapshotType = kindOf key

section

variable {kindOf : TemplateKey → SnapshotType} {p' : TemplatePool}

theorem Filed.kind_of_mem (hp : Filed kindOf p) (ht : t ∈ p.available.all) :
    t.snapshotType = kindOf t.key := by
  obtain ⟨key, hkey⟩ := Queues.mem_all_iff.mp ht
  obtain ⟨rfl, hkind⟩ := hp key t hkey
  exact hkind

theorem Filed.shrinks (hp : Filed kindOf p) (h : p.available.Shrinks p'.available) :
    Filed kindOf p' :=
  fun key t ht => hp key t ((h.queue key).subset ht)

theorem mem_queue_pushBack {key : TemplateKey} {u : PooledTemplate}
    (h : u ∈ (p.pushBack t).available.queue key) :
    u ∈ p.available.queue key ∨ (u = t ∧ key = t.key) := by
  rw [TemplatePool.pushBack, Queues.queue_pushBack] at h
  split at h
  · rename_i hkey
    rcases FirstMatch.mem_concat.mp h with hold | hnew
    · exact Or.inl (hkey ▸ hold)
    · exact Or.inr ⟨hnew, hkey⟩
  · exact Or.inl h

theorem Filed.pushBack (hp : Filed kindOf p) (hkind : t.snapshotType = kindOf t.key) :
    Filed kindOf (p.pushBack t) := by
  intro key u hu
  rcases mem_queue_pushBack hu with hold | ⟨rfl, rfl⟩
  · exact hp key u hold
  · exact ⟨rfl, hkind⟩

end

/-! ## The section an acquisition takes its template in -/

/-- The sections that hand out a template: by key or by id, pinned for a restore,
referenced, or taken out. -/
inductive Take where
  | peekLatestForRestore (key : TemplateKey)
  | peekByIdForRestore (id : String)
  | peekWithRef (key : TemplateKey)
  | peekByIdWithRef (id : String)
  | acquire (key : TemplateKey)
  | acquireById (id : String)
  deriving DecidableEq, Repr

/-- The section takes the template out of the pool; a consumed marker is written
next. -/
def Take.pops : Take → Bool
  | .acquire _ => true
  | .acquireById _ => true
  | _ => false

/-- Run the section. -/
def take (p : TemplatePool) : Take → Option (PooledTemplate × TemplatePool)
  | .peekLatestForRestore key => p.peekLatestForRestore key
  | .peekByIdForRestore id => p.peekByIdForRestore id
  | .peekWithRef key => p.peekWithRef key
  | .peekByIdWithRef id => p.peekByIdWithRef id
  | .acquire key => p.acquirePop key
  | .acquireById id => p.acquireByIdPop id

/-- The first section of `acquire_for_restore`: the type of the latest template
decides how it is taken. -/
def acquireForRestore (p : TemplatePool) (key : TemplateKey) : Option Take :=
  match (p.latest key).map PooledTemplate.snapshotType with
  | none => none
  | some .environment => some (.peekLatestForRestore key)
  | some .warmFork => if p.leaseMode = .shared then some (.peekWithRef key) else some (.acquire key)
  | some .continuation => none

/-- The first section of `acquire_by_id_for_restore`. -/
def acquireByIdForRestore (p : TemplatePool) (id : String) : Option Take :=
  match (p.findById id).map PooledTemplate.snapshotType with
  | none => none
  | some .environment => some (.peekByIdForRestore id)
  | some .warmFork =>
    if p.leaseMode = .shared then some (.peekByIdWithRef id) else some (.acquireById id)
  | some .continuation => none

variable {op : Take} {p' : TemplatePool}

/-- What a section that hands out `t` does to the pool: it pins `t`, counts a
reference on it, or takes it out. -/
inductive Taken (p : TemplatePool) (t : PooledTemplate) : Take → TemplatePool → Prop where
  | pinned {op : Take} (hpop : op.pops = false) :
    Taken p t op { p with inFlightRestores := p.inFlightRestores.incr t.id }
  | referenced {op : Take} (hpop : op.pops = false) (hmode : p.leaseMode = .shared) :
    Taken p t op { p with inUseCount := p.inUseCount.incr t.id }
  | popped {op : Take} {q : Queues TemplateKey PooledTemplate} (hpop : op.pops = true)
    (hperm : p.available.all.Perm (t :: q.all)) : Taken p t op { p with available := q }

theorem takeRef_eq_some {found : Option PooledTemplate} (h : p.takeRef found = some (t, p')) :
    found = some t ∧ p.leaseMode = .shared ∧
      p' = { p with inUseCount := p.inUseCount.incr t.id } := by
  unfold takeRef at h
  split at h
  · simp at h
  · split at h
    · simp at h
    · rename_i hmode
      obtain ⟨rfl, rfl⟩ := h
      exact ⟨rfl, not_not.mp hmode, rfl⟩

theorem pinned_eq_some {found : Option PooledTemplate}
    (h : (found.map fun t => (t, { p with inFlightRestores := p.inFlightRestores.incr t.id })) =
      some (t, p')) :
    found = some t ∧ p' = { p with inFlightRestores := p.inFlightRestores.incr t.id } := by
  simp only [Option.map_eq_some_iff, Prod.mk.injEq] at h
  obtain ⟨u, hu, rfl, rfl⟩ := h
  exact ⟨hu, rfl⟩

theorem popped_eq_some {popped : Option (PooledTemplate × Queues TemplateKey PooledTemplate)}
    (h : (popped.map fun r => (r.1, { p with available := r.2 })) = some (t, p')) :
    ∃ q, popped = some (t, q) ∧ p' = { p with available := q } := by
  simp only [Option.map_eq_some_iff, Prod.mk.injEq] at h
  obtain ⟨⟨u, q⟩, hu, rfl, rfl⟩ := h
  exact ⟨q, hu, rfl⟩

theorem take_spec (h : p.take op = some (t, p')) :
    t ∈ p.available.all ∧ Taken p t op p' := by
  cases op with
  | peekLatestForRestore key =>
    obtain ⟨hu, rfl⟩ := pinned_eq_some h
    exact ⟨mem_of_latest hu, .pinned rfl⟩
  | peekByIdForRestore id =>
    obtain ⟨hu, rfl⟩ := pinned_eq_some h
    exact ⟨(mem_of_findById hu).1, .pinned rfl⟩
  | peekWithRef key =>
    obtain ⟨hu, hmode, rfl⟩ := takeRef_eq_some h
    exact ⟨mem_of_latest hu, .referenced rfl hmode⟩
  | peekByIdWithRef id =>
    obtain ⟨hu, hmode, rfl⟩ := takeRef_eq_some h
    exact ⟨(mem_of_findById hu).1, .referenced rfl hmode⟩
  | acquire key =>
    obtain ⟨q, hu, rfl⟩ := popped_eq_some h
    exact ⟨Queues.mem_all_of_mem_queue (Queues.mem_of_popBack hu),
      .popped rfl (Queues.all_popBack_perm hu)⟩
  | acquireById id =>
    obtain ⟨q, hu, rfl⟩ := popped_eq_some h
    have hperm := (Queues.removeFirst_spec hu).2
    exact ⟨hperm.mem_iff.mpr (by simp), .popped rfl hperm⟩

/-- No section that hands out a template files one. -/
theorem take_shrinks (h : p.take op = some (t, p')) : p.available.Shrinks p'.available := by
  cases op with
  | acquire key =>
    obtain ⟨q, hu, rfl⟩ := popped_eq_some h
    exact Queues.shrinks_popBack hu
  | acquireById id =>
    obtain ⟨q, hu, rfl⟩ := popped_eq_some h
    exact Queues.shrinks_removeFirst hu
  | _ =>
    -- the other sections only count
    obtain ⟨-, htaken⟩ := take_spec h
    cases htaken with
    | pinned | referenced => exact .refl _
    | popped hpop => simp [Take.pops] at hpop

end TemplatePool

end Kuasar

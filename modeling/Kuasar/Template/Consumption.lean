import Kuasar.Tla.Tasks
import Kuasar.Template.Pool

/-!
# Template.Consumption — single use of a template across crashes

A template that is lent exclusively leaves its queue and gets a consumed marker on
disk before it is handed out. The queue is lost in a crash, the marker is not, and
`load_from_disk` fills the queues again from the directories without a marker.

The tasks below run `acquire`, `acquire_by_id` and what becomes of the lease, and the
process may crash at any moment. Every template id is in one place at most: in the
queues, in the hands of one task, or among the completed restores. The marker is what
keeps this across a crash, so it holds in the runs in which no load fails to see the
marker of a consumed directory (`single_use`). A load that cannot stat the marker takes
the template for fresh (`stat_error_offers_again`).
-/

namespace Kuasar

def TemplatePool.new (environmentMaxPerKey warmforkMaxPerKey gcWatermark : Nat)
    (leaseMode : TemplateLeaseMode) (reflinkSupported : Bool) : TemplatePool :=
  ⟨.empty, .empty, .empty, .empty, environmentMaxPerKey, warmforkMaxPerKey, gcWatermark, leaseMode,
    reflinkSupported⟩

namespace Consumption

open TemplatePool Tla

/-- A template directory, and whether the consumed marker is in it. The id names the
directory. -/
structure Entry where
  tmpl : PooledTemplate
  consumed : Bool
  deriving DecidableEq, Repr

/-- The pool, the template directories, and for the proof the ids of the templates from
which a restore completed. -/
structure Shared where
  pool : TemplatePool
  disk : List Entry
  completed : List String

namespace Shared

def queuedIds (s : Shared) : List String := s.pool.available.all.map (·.id)

def setMarker (s : Shared) (id : String) (b : Bool) : Shared :=
  { s with disk := s.disk.map fun e => if e.tmpl.id = id then { e with consumed := b } else e }

def Marked (s : Shared) (id : String) : Prop := ∀ e ∈ s.disk, e.tmpl.id = id → e.consumed = true

end Shared

/-- Where a task stands: a template taken out of the queue gets its marker created and
synced, or returns to the queue; a lease ends, or is released by removing the marker
and filing the template again. -/
inductive Pc where
  | idle
  | marking (t : PooledTemplate)
  | syncing (t : PooledTemplate)
  | returning (t : PooledTemplate)
  | lease (t : PooledTemplate) (kind : RestoreLeaseKind)
  | releasing (t : PooledTemplate)
  | pushing (t : PooledTemplate)

inductive Step : Shared → Pc → Shared → Pc → Prop where
  -- hash maps are iterated in no particular order
  | rehash {s l q} (h : s.pool.available.Rehashed q) :
      Step s l { s with pool := { s.pool with available := q } } l
  | acquire {s key t p}
      (h : s.pool.acquirePop key = some (t, p)) : Step s .idle { s with pool := p } (.marking t)
  | acquireById {s id t p}
      (h : s.pool.acquireByIdPop id = some (t, p)) : Step s .idle { s with pool := p } (.marking t)
  -- write_consumed_marker: File::create, then sync_all
  | createOk {s t} (h : t.id ∈ s.disk.map (·.tmpl.id)) :
      Step s (.marking t) (s.setMarker t.id true) (.syncing t)
  | createErr {s t} : Step s (.marking t) s (.returning t)
  | syncOk {s t kind} (h : s.pool.leaseKind t = some kind) : Step s (.syncing t) s (.lease t kind)
  | syncErr {s t} : Step s (.syncing t) s (.returning t)
  | putBack {s t} : Step s (.returning t) { s with pool := s.pool.pushBack t } .idle
  -- TemplateLease::complete
  | completeLease {s t} :
      Step s (.lease t .sharedLease)
        { s with pool := (s.pool.endRestore t.id).1, completed := t.id :: s.completed } .idle
  | complete {s t kind} (h : kind ≠ .sharedLease) :
      Step s (.lease t kind) { s with completed := t.id :: s.completed } .idle
  -- TemplateLease::fail
  | failLease {s t} :
      Step s (.lease t .sharedLease) { s with pool := (s.pool.endRestore t.id).1 } .idle
  | failRef {s t} : Step s (.lease t .sharedRef) { s with pool := (s.pool.deref t.id).1 } .idle
  | failExclusive {s t} : Step s (.lease t .exclusive) s (.releasing t)
  -- release: an error of remove_file is logged, and the template goes back all the same
  | removeOk {s t} : Step s (.releasing t) (s.setMarker t.id false) (.pushing t)
  | removeErr {s t} : Step s (.releasing t) s (.pushing t)
  | push {s t} : Step s (.pushing t) { s with pool := s.pool.pushBack t } .idle
  -- the collections and evictions of the pool, and cleanup_consumed
  | dequeue {s l} (id : String) : Step s l { s with pool := s.pool.dequeue id } l
  | removeDir {s l} (id : String) :
      Step s l { s with disk := s.disk.filter fun e => e.tmpl.id ≠ id } l

/-! ## Loading from disk -/

/-- A directory as `load_from_disk` comes across it: whether the stat of its marker and
the read of its metadata succeed. -/
structure Scan where
  entry : Entry
  statOk : Bool
  loadOk : Bool
  deriving DecidableEq, Repr

/-- The scan of `load_from_disk`. A stat that fails counts as no marker, and metadata that
cannot be read is skipped. -/
def loadFromDisk (p : TemplatePool) : List Scan → TemplatePool
  | [] => p
  | d :: scan =>
    if d.statOk && d.entry.consumed then loadFromDisk p scan
    else if d.loadOk then loadFromDisk (p.pushBack d.entry.tmpl) scan
    else loadFromDisk p scan

/-- The state of the system. -/
abbrev St := Sys Shared Pc

/-- A directory over a crash: a marker that some task had not synced yet may be lost, and
one that was removed may come back. -/
def Survives (tasks : List Pc) (e e' : Entry) : Prop :=
  e'.tmpl = e.tmpl ∧
    (e.consumed = true → (∀ t, Pc.syncing t ∈ tasks → t.id ≠ e.tmpl.id) → e'.consumed = true)

/-- The process dies and a new one loads the pool. `read_dir` lists the directories in any
order, and may stop early. -/
def Restart (p : TemplatePool) (scan : List Scan) (n : ℕ) : Action St := fun s s' =>
  p.available = .empty ∧ List.Forall₂ (Survives s.tasks) s.shared.disk s'.shared.disk ∧
    (scan.map (·.entry)).Subperm s'.shared.disk ∧ s'.shared.pool = loadFromDisk p scan ∧
    s'.shared.completed = s.shared.completed ∧ s'.tasks = List.replicate n .idle

/-- A task takes a step, or the process restarts with the empty pool `p`. -/
inductive Label where
  | task (i : ℕ)
  | restart (p : TemplatePool) (scan : List Scan) (n : ℕ)

/-- The steps. -/
def next : Label → Action St
  | .task i => TaskStep Step i
  | .restart p scan n => Restart p scan n

/-- Any pool and any directories, each template once in either, and idle tasks. -/
def Init : StatePred St := fun s =>
  s.shared.queuedIds.Nodup ∧ (s.shared.disk.map (·.tmpl.id)).Nodup ∧ s.shared.completed = [] ∧
    ∀ l ∈ s.tasks, l = .idle

/-- No load fails to stat the marker of a consumed directory. -/
def MarkersSeen : Label → StatePred St
  | .task _, _ => True
  | .restart _ scan _, _ => ∀ d ∈ scan, d.entry.consumed = true → d.statOk = true

/-- No template is leased to two restores at once, or leased after a restore from it
completed. -/
def SingleUse : StatePred St := fun s =>
  (∀ (i j : ℕ) (t u : PooledTemplate) (kt ku : RestoreLeaseKind), i ≠ j →
    s.tasks[i]? = some (.lease t kt) → s.tasks[j]? = some (.lease u ku) → t.id ≠ u.id) ∧
  ∀ (i : ℕ) (t : PooledTemplate) (kind : RestoreLeaseKind),
    s.tasks[i]? = some (.lease t kind) → t.id ∉ s.shared.completed

/-! ## What a step does -/

namespace Pc

/-- The template in the hands of a task. -/
def held : Pc → List String
  | .idle => []
  | .marking t => [t.id]
  | .syncing t => [t.id]
  | .returning t => [t.id]
  | .lease t _ => [t.id]
  | .releasing t => [t.id]
  | .pushing t => [t.id]

/-- The template whose marker a task has written. -/
def marked : Pc → Option String
  | .syncing t => some t.id
  | .lease t _ => some t.id
  | _ => none

theorem marked_held {l : Pc} {id : String} (h : l.marked = some id) : l.held = [id] := by
  cases l with
  | syncing t | lease t => rw [← Option.some.inj h]; rfl
  | _ => simp [marked] at h

end Pc

variable {s s' : Shared} {l l' : Pc} {x : String}

theorem queuedIds_perm {q q' : Queues TemplateKey PooledTemplate} {t : PooledTemplate}
    (h : q.all.Perm (t :: q'.all)) :
    (q.all.map (·.id)).count x = (q'.all.map (·.id)).count x + [t.id].count x := by
  have hcount := (h.map (·.id)).count_eq x
  rw [hcount, List.map_cons, List.count_cons, List.count_cons, List.count_nil]
  omega

theorem count_queuedIds_pushBack (s : Shared) (t : PooledTemplate) :
    { s with pool := s.pool.pushBack t : Shared }.queuedIds.count x =
      s.queuedIds.count x + [t.id].count x :=
  queuedIds_perm Queues.all_pushBack_perm

/-- A step moves a template between the queues, the task and the completed restores, and
makes no second one. -/
theorem Step.moves (h : Step s l s' l') :
    s'.queuedIds.count x + l'.held.count x + s'.completed.count x ≤
      s.queuedIds.count x + l.held.count x + s.completed.count x := by
  cases h with
  | rehash h =>
    have := (h.all_perm.map (·.id)).count_eq x
    simp only [Shared.queuedIds]
    omega
  | acquire h =>
    simp only [acquirePop, Option.map_eq_some_iff, Prod.mk.injEq] at h
    obtain ⟨⟨t, q⟩, hpop, rfl, rfl⟩ := h
    have := queuedIds_perm (x := x) (Queues.all_popBack_perm hpop)
    simp only [Shared.queuedIds, Pc.held, List.count_nil]
    omega
  | acquireById h =>
    simp only [acquireByIdPop, Option.map_eq_some_iff, Prod.mk.injEq] at h
    obtain ⟨⟨t, q⟩, hpop, rfl, rfl⟩ := h
    have := queuedIds_perm (x := x) (Queues.removeFirst_spec hpop).2
    simp only [Shared.queuedIds, Pc.held, List.count_nil]
    omega
  | putBack | push =>
    rw [count_queuedIds_pushBack]
    simp only [Pc.held, List.count_nil]
    omega
  | completeLease | complete =>
    simp only [Shared.queuedIds, endRestore, Pc.held, List.count_cons, List.count_nil]
    omega
  | failLease | failRef =>
    simp only [Shared.queuedIds, endRestore, deref, Pc.held, List.count_nil]
    omega
  | dequeue id =>
    have hsub : ((s.pool.dequeue id).available.all.map (·.id)).Sublist
        (s.pool.available.all.map (·.id)) := by
      rw [TemplatePool.dequeue, Queues.all_retain]
      exact List.filter_sublist.map _
    have := hsub.count_le x
    simp only [Shared.queuedIds]
    omega
  | _ => exact Nat.le_refl _

theorem mem_setMarker {id : String} {b : Bool} {e : Entry} (h : e ∈ (s.setMarker id b).disk) :
    (e.tmpl.id = id ∧ e.consumed = b) ∨ (e.tmpl.id ≠ id ∧ e ∈ s.disk) := by
  obtain ⟨e₀, he₀, rfl⟩ := List.mem_map.mp h
  by_cases hid : e₀.tmpl.id = id
  · simp [hid]
  · simp [hid, he₀]

theorem Step.markers (h : Step s l s' l') (hx : l.held.count x = 0) (hm : s.Marked x) :
    s'.Marked x := by
  cases h with
  | createOk | removeOk =>
    intro e he hex
    rcases mem_setMarker he with ⟨hid, -⟩ | ⟨-, he⟩
    · simp [Pc.held, ← hex, hid] at hx
    · exact hm e he hex
  | removeDir id =>
    intro e he hex
    exact hm e (List.mem_of_mem_filter he) hex
  | _ => exact hm

theorem Step.marked (h : Step s l s' l') (hm : ∀ id, l.marked = some id → s.Marked id) {id : String}
    (hid : l'.marked = some id) : s'.Marked id := by
  cases h with
  | createOk =>
    cases hid
    intro e he hex
    rcases mem_setMarker he with ⟨-, hb⟩ | ⟨hne, -⟩
    · exact hb
    · exact absurd hex hne
  | syncOk | rehash | dequeue => exact hm id hid
  | removeDir =>
    intro e he hex
    exact hm id hid e (List.mem_of_mem_filter he) hex
  | _ => simp [Pc.marked] at hid

theorem Step.completes (h : Step s l s' l') (hx : x ∈ s'.completed) :
    x ∈ s.completed ∨ (l.marked = some x ∧ s'.disk = s.disk) := by
  cases h with
  | completeLease | complete =>
    rcases List.mem_cons.mp hx with rfl | hx
    · exact Or.inr ⟨rfl, rfl⟩
    · exact Or.inl hx
  | _ => exact Or.inl hx

theorem Step.disk (h : Step s l s' l') :
    (s'.disk.map (·.tmpl.id)).Sublist (s.disk.map (·.tmpl.id)) := by
  have hset : ∀ (s : Shared) (id : String) (b : Bool),
      ((s.setMarker id b).disk.map (·.tmpl.id)) = s.disk.map (·.tmpl.id) := by
    intro s id b
    rw [Shared.setMarker, List.map_map]
    refine List.map_congr_left fun e _ => ?_
    by_cases h : e.tmpl.id = id <;> simp [h]
  cases h with
  | createOk | removeOk =>
    rw [hset]
  | removeDir => exact List.filter_sublist.map _
  | _ => exact List.Sublist.refl _

/-! ## One place for every template -/

/-- What a template id weighs in the hands of a task. -/
def weight (x : String) (l : Pc) : ℕ := l.held.count x

/-- Every template is in one place at most, and marked once it was handed out. -/
structure Inv (s : St) : Prop where
  once : ∀ x, s.shared.queuedIds.count x + (s.tasks.map (weight x)).sum +
    s.shared.completed.count x ≤ 1
  disk : (s.shared.disk.map (·.tmpl.id)).Nodup
  completed : ∀ x ∈ s.shared.completed, s.shared.Marked x
  marked : ∀ (i : ℕ) (l : Pc) (x : String), s.tasks[i]? = some l → l.marked = some x →
    s.shared.Marked x

theorem weight_of_marked {l : Pc} {x : String} (h : l.marked = some x) : weight x l = 1 := by
  rw [weight, Pc.marked_held h, List.count_singleton_self]

theorem init_inv (s : St) (h : Init s) : Inv s := by
  obtain ⟨hqueue, hdisk, hcompleted, hidle⟩ := h
  refine ⟨?_, hdisk, ?_, ?_⟩
  · intro x
    have := List.nodup_iff_count_le_one.mp hqueue x
    rw [sum_weight_idle (w := weight x) rfl hidle, hcompleted, List.count_nil]
    omega
  · intro x hx
    rw [hcompleted] at hx
    simp at hx
  · intro i l x hi hx
    rw [hidle l (List.mem_of_getElem? hi)] at hx
    simp [Pc.marked] at hx

theorem task_inv {i : ℕ} {s s' : St} (h : TaskStep Step i s s') (hs : Inv s) : Inv s' := by
  obtain ⟨l, l', hi, hstep, hset⟩ := h
  have hsum : ∀ x, (s'.tasks.map (weight x)).sum + weight x l =
      (s.tasks.map (weight x)).sum + weight x l' := by
    intro x
    rw [hset]
    exact sum_weight_set l' hi
  refine ⟨?_, ?_, ?_, ?_⟩
  · intro x
    have hmoves := hstep.moves (x := x)
    have := hsum x
    have := hs.once x
    unfold weight at *
    omega
  · exact hs.disk.sublist hstep.disk
  · intro x hx
    rcases hstep.completes hx with hold | ⟨hmarked, hdisk⟩
    · -- the task does not hold a template that is used up
      refine hstep.markers ?_ (hs.completed x hold)
      have := hs.once x
      have := weight_le_sum (w := weight x) hi
      have := List.count_pos_iff.mpr hold
      unfold weight at *
      omega
    · have hold : s.shared.Marked x := hs.marked i l x hi hmarked
      unfold Shared.Marked at hold ⊢
      rw [hdisk]
      exact hold
  · intro j m x hj hx
    rw [hset] at hj
    rcases getElem?_set_cases hj with ⟨-, rfl⟩ | ⟨hji, hm⟩
    · exact hstep.marked (fun id hid => hs.marked i l id hi hid) hx
    · -- nor one that another task holds
      refine hstep.markers ?_ (hs.marked j m x hm hx)
      have := hs.once x
      have := weight_add_le_sum (w := weight x) hji hm hi
      have := weight_of_marked hx
      unfold weight at *
      omega

/-! ## Across a restart -/

/-- What the scan files in the queues. -/
def loaded (scan : List Scan) : List PooledTemplate :=
  (scan.filter fun d => !(d.statOk && d.entry.consumed) && d.loadOk).map (·.entry.tmpl)

theorem loadFromDisk_eq (p : TemplatePool) (scan : List Scan) :
    loadFromDisk p scan = (loaded scan).foldl TemplatePool.pushBack p := by
  induction scan generalizing p with
  | nil => rfl
  | cons d scan ih =>
    unfold loadFromDisk loaded
    by_cases hseen : (d.statOk && d.entry.consumed) = true
    · rw [if_pos hseen, List.filter_cons_of_neg (by simp [hseen])]
      exact ih p
    · rw [if_neg hseen]
      by_cases hload : d.loadOk = true
      · rw [if_pos hload, List.filter_cons_of_pos (by simp [hseen, hload])]
        exact ih (p.pushBack d.entry.tmpl)
      · rw [if_neg hload, List.filter_cons_of_neg (by simp [hload])]
        exact ih p

theorem mem_loaded {scan : List Scan} {t : PooledTemplate} (h : t ∈ loaded scan) :
    ∃ d ∈ scan, d.entry.tmpl = t ∧ (d.statOk && d.entry.consumed) = false := by
  obtain ⟨d, hd, rfl⟩ := List.mem_map.mp h
  obtain ⟨hmem, hcond⟩ := List.mem_filter.mp hd
  refine ⟨d, hmem, rfl, ?_⟩
  simp only [Bool.and_eq_true, Bool.not_eq_true'] at hcond
  exact hcond.1

theorem loaded_sublist (scan : List Scan) :
    ((loaded scan).map (·.id)).Sublist ((scan.map (·.entry)).map (·.tmpl.id)) := by
  rw [loaded, List.map_map, List.map_map]
  exact List.filter_sublist.map _

/-- The directories that survive carry the templates they carried. -/
theorem survives_ids {tasks : List Pc} {disk disk' : List Entry}
    (h : List.Forall₂ (Survives tasks) disk disk') :
    disk'.map (·.tmpl.id) = disk.map (·.tmpl.id) := by
  induction h with
  | nil => rfl
  | cons he _ ih => rw [List.map_cons, List.map_cons, ih, he.1]

/-- The marker of a template that no task was still marking is there after the crash. -/
theorem survives_marked {tasks : List Pc} {disk disk' : List Entry}
    (h : List.Forall₂ (Survives tasks) disk disk') {x : String}
    (hx : ∀ t, Pc.syncing t ∈ tasks → t.id ≠ x)
    (hm : ∀ e ∈ disk, e.tmpl.id = x → e.consumed = true) :
    ∀ e ∈ disk', e.tmpl.id = x → e.consumed = true := by
  induction h with
  | nil => simp
  | @cons e e' disk disk' he _ ih =>
    intro a ha hax
    rcases List.mem_cons.mp ha with rfl | ha
    · rw [he.1] at hax
      refine he.2 (hm e List.mem_cons_self hax) ?_
      intro t ht
      rw [hax]
      exact hx t ht
    · exact ih (fun b hb => hm b (List.mem_cons_of_mem _ hb)) a ha hax

/-- A used-up template is not loaded as long as its marker is seen. -/
theorem not_loaded {s : Shared} {scan : List Scan} {x : String} (hm : s.Marked x)
    (hscan : (scan.map (·.entry)).Subperm s.disk)
    (hseen : ∀ d ∈ scan, d.entry.consumed = true → d.statOk = true) :
    x ∉ (loaded scan).map (·.id) := by
  intro hx
  obtain ⟨t, ht, rfl⟩ := List.mem_map.mp hx
  obtain ⟨d, hd, hdt, hskip⟩ := mem_loaded ht
  have hcons : d.entry.consumed = true :=
    hm d.entry (hscan.subset (List.mem_map_of_mem hd)) (by rw [hdt])
  rw [hcons, hseen d hd hcons] at hskip
  simp at hskip

theorem restart_inv {p : TemplatePool} {scan : List Scan} {n : ℕ} {s s' : St}
    (h : Restart p scan n s s') (hseen : ∀ d ∈ scan, d.entry.consumed = true → d.statOk = true)
    (hs : Inv s) : Inv s' := by
  obtain ⟨hempty, hdisk, hscan, hpool, hcompleted, htasks⟩ := h
  have hids := survives_ids hdisk
  have hidle : ∀ l ∈ s'.tasks, l = .idle := by
    intro l hl
    rw [htasks] at hl
    exact List.eq_of_mem_replicate hl
  have hmarked : ∀ x ∈ s'.shared.completed, s'.shared.Marked x := by
    intro x hx
    rw [hcompleted] at hx
    refine survives_marked hdisk ?_ (hs.completed x hx)
    -- a task that is marking it would hold a template that is used up
    rintro t ht rfl
    obtain ⟨i, hi⟩ := List.mem_iff_getElem?.mp ht
    have := hs.once t.id
    have := weight_le_sum (w := weight t.id) hi
    have : weight t.id (.syncing t) = 1 := weight_of_marked rfl
    have := List.count_pos_iff.mpr hx
    omega
  have hnodup : (s'.shared.disk.map (·.tmpl.id)).Nodup := by
    rw [hids]
    exact hs.disk
  refine ⟨?_, hnodup, hmarked, ?_⟩
  · intro x
    have hqueue : s'.shared.queuedIds.count x = ((loaded scan).map (·.id)).count x := by
      have hperm := ((foldl_pushBack_perm p (loaded scan)).map (·.id)).count_eq x
      have hall : p.available.all = [] := by rw [hempty]; rfl
      rw [Shared.queuedIds, hpool, loadFromDisk_eq, hperm, hall, List.append_nil]
    rw [hqueue, sum_weight_idle (w := weight x) rfl hidle]
    by_cases hx : x ∈ s'.shared.completed
    · have hzero : ((loaded scan).map (·.id)).count x = 0 :=
        List.count_eq_zero.mpr (not_loaded (hmarked x hx) hscan hseen)
      have := hs.once x
      rw [hzero, hcompleted]
      omega
    · have hmap : ((scan.map (·.entry)).map (·.tmpl.id)).Subperm
          (s'.shared.disk.map (·.tmpl.id)) := by
        obtain ⟨entries, hperm, hsub⟩ := hscan
        exact ⟨entries.map (·.tmpl.id), hperm.map _, hsub.map _⟩
      have hone := ((loaded_sublist scan).subperm.trans hmap).count_le x
      have := List.nodup_iff_count_le_one.mp hnodup x
      rw [List.count_eq_zero.mpr hx]
      omega
  · intro i l x hi hx
    rw [hidle l (List.mem_of_getElem? hi)] at hx
    simp [Pc.marked] at hx

theorem step_inv (l : Label) (s s' : St) (hok : MarkersSeen l s) (h : next l s s') (hs : Inv s) :
    Inv s' := by
  cases l with
  | task i => exact task_inv h hs
  | restart p scan n => exact restart_inv h hok hs

/-- In every run in which loads see the markers, over any number of crashes, no template is
leased twice at once or again after it was used. -/
theorem single_use (s : St) (h : Reachable Init (Guarded MarkersSeen next) s) : SingleUse s := by
  have hs := h.guarded_invariant init_inv step_inv
  refine ⟨?_, ?_⟩
  · intro i j t u kt ku hij hi hj htu
    have := hs.once t.id
    have hsum := weight_add_le_sum (w := weight t.id) hij hi hj
    have hone : weight t.id (.lease t kt) = 1 := weight_of_marked rfl
    have htwo : weight t.id (.lease u ku) = 1 := weight_of_marked (by rw [htu]; rfl)
    omega
  · intro i t kind hi hx
    have := hs.once t.id
    have hsum := weight_le_sum (w := weight t.id) hi
    have hone : weight t.id (.lease t kind) = 1 := weight_of_marked rfl
    have := List.count_pos_iff.mpr hx
    omega

/-! ## A marker that is not seen -/

/-- Two WarmFork templates of one key. -/
def forkable : PooledTemplate := { id := "t1", key := ⟨"k"⟩, snapshotType := .warmFork }
def spare : PooledTemplate := { forkable with id := "t2" }

def exclusivePool : TemplatePool := .new 4 4 10 .exclusive true

/-- The templates in the pool and on disk, and one idle task. -/
def stocked : St :=
  ⟨⟨(exclusivePool.pushBack spare).pushBack forkable, [⟨forkable, false⟩, ⟨spare, false⟩], []⟩,
    [.idle]⟩

/-- The directories after a restore from the first, as a load finds them if the stat of the marker
succeeds or not. -/
def scanned (statOk : Bool) : List Scan :=
  [⟨⟨spare, false⟩, true, true⟩, ⟨⟨forkable, true⟩, statOk, true⟩]

/-- A restore from the first template completes. -/
theorem completed_reachable : Reachable Init (Guarded MarkersSeen next)
    ⟨⟨exclusivePool.pushBack spare, [⟨forkable, true⟩, ⟨spare, false⟩], ["t1"]⟩, [.idle]⟩ := by
  have h₀ : Reachable Init (Guarded MarkersSeen next) stocked :=
    .init ⟨by decide, by decide, rfl, by simp [stocked]⟩
  have h₁ := h₀.step ⟨.task 0, trivial,
    TaskStep.of_step rfl (@Step.acquire stocked.shared ⟨"k"⟩ forkable _ rfl)⟩
  have h₂ := h₁.step ⟨.task 0, trivial, TaskStep.of_step rfl (.createOk (by decide))⟩
  have h₃ := h₂.step ⟨.task 0, trivial,
    TaskStep.of_step rfl (@Step.syncOk _ forkable .exclusive rfl)⟩
  have h₄ := h₃.step ⟨.task 0, trivial, TaskStep.of_step rfl (.complete (by decide))⟩
  exact h₄

/-- Then the process crashes and a new one loads the pool. -/
theorem restart_completed (statOk : Bool) :
    next (.restart exclusivePool (scanned statOk) 1)
      ⟨⟨exclusivePool.pushBack spare, [⟨forkable, true⟩, ⟨spare, false⟩], ["t1"]⟩, [.idle]⟩
      ⟨⟨loadFromDisk exclusivePool (scanned statOk), [⟨forkable, true⟩, ⟨spare, false⟩], ["t1"]⟩,
        [.idle]⟩ :=
  ⟨rfl, .cons ⟨rfl, fun _ _ => rfl⟩ (.cons ⟨rfl, nofun⟩ .nil), (List.Perm.swap ..).subperm,
    rfl, rfl, rfl⟩

/-- A load that sees the marker offers the other template only, which is leased. -/
theorem single_use_restarted :
    ∃ s : St, Reachable Init (Guarded MarkersSeen next) s ∧ s.shared.completed = ["t1"] ∧
      s.tasks = [.lease spare .exclusive] ∧ s.shared.queuedIds = [] ∧ SingleUse s := by
  have hseen : ∀ d ∈ scanned true, d.entry.consumed = true → d.statOk = true := by decide
  have h₁ := completed_reachable.step
    ⟨.restart exclusivePool (scanned true) 1, hseen, restart_completed true⟩
  have h₂ := h₁.step ⟨.task 0, trivial,
    TaskStep.of_step rfl (@Step.acquire _ ⟨"k"⟩ spare _ rfl)⟩
  have h₃ := h₂.step ⟨.task 0, trivial, TaskStep.of_step rfl (.createOk (by decide))⟩
  have h₄ := h₃.step ⟨.task 0, trivial,
    TaskStep.of_step rfl (@Step.syncOk _ spare .exclusive rfl)⟩
  exact ⟨_, h₄, rfl, rfl, rfl, single_use _ h₄⟩

/-- A load that cannot stat the marker offers the template again, and it is leased a second
time. -/
theorem stat_error_offers_again :
    ∃ s : St, Reachable Init (AnyStep next) s ∧ s.tasks[0]? = some (.lease forkable .exclusive) ∧
      forkable.id ∈ s.shared.completed ∧ ¬ SingleUse s := by
  have h₁ := completed_reachable.unguarded.anyStep _ (restart_completed false)
  have h₂ := h₁.anyStep (.task 0)
    (TaskStep.of_step rfl (@Step.acquire _ ⟨"k"⟩ forkable _ rfl))
  have h₃ := h₂.anyStep (.task 0) (TaskStep.of_step rfl (.createOk (by decide)))
  have h₄ := h₃.anyStep (.task 0)
    (TaskStep.of_step rfl (@Step.syncOk _ forkable .exclusive rfl))
  refine ⟨_, h₄, rfl, List.mem_cons_self, ?_⟩
  intro hsingle
  exact hsingle.2 0 forkable .exclusive rfl List.mem_cons_self

end Consumption

end Kuasar

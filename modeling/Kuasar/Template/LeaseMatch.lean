import Kuasar.Template.PoolIds

/-!
# Template.LeaseMatch — what an acquisition took and what its lease gives back

`acquire_for_restore` reads the type of a template in one section and takes a template in
another; the type decides what is taken with it: an in-flight restore, a reference, or the
template itself with its consumed marker. A lease goes by the type of the template it is
built from. Between the two sections other tasks may add, put back, remove and take.

The tasks are those of `PoolTasks`; a task that serves a restore carries a record of what
it saw and took, which no step reads. `acquired_matches_lease`: where the templates of a
key are of one kind, what was taken is what the lease gives back. An id keeps its type, so
by id only the sections' own lookups matter. By key a template of another kind that is
added in between is taken for one of the kind that was seen (`added_under_the_key`).
-/

namespace Kuasar

namespace TemplatePool

/-- What a section takes with the template it hands out. -/
def Take.resource : Take → RestoreLeaseKind
  | .peekLatestForRestore _ => .sharedLease
  | .peekByIdForRestore _ => .sharedLease
  | .peekWithRef _ => .sharedRef
  | .peekByIdWithRef _ => .sharedRef
  | .acquire _ => .exclusive
  | .acquireById _ => .exclusive

/-- What taking a resource with `t` does to the pool. -/
inductive Took (p : TemplatePool) (t : PooledTemplate) : RestoreLeaseKind → TemplatePool → Prop
  where
  | restore : Took p t .sharedLease { p with inFlightRestores := p.inFlightRestores.incr t.id }
  | reference : Took p t .sharedRef { p with inUseCount := p.inUseCount.incr t.id }
  | removal {q} (h : p.available.all.Perm (t :: q.all)) :
    Took p t .exclusive { p with available := q }

variable {p p' : TemplatePool} {op : Take} {t : PooledTemplate}

theorem take_took (h : p.take op = some (t, p')) : Took p t op.resource p' := by
  cases op with
  | peekLatestForRestore key | peekByIdForRestore id =>
    obtain ⟨-, rfl⟩ := pinned_eq_some h
    exact .restore
  | peekWithRef key | peekByIdWithRef id =>
    obtain ⟨-, -, rfl⟩ := takeRef_eq_some h
    exact .reference
  | acquire key =>
    obtain ⟨q, hu, rfl⟩ := popped_eq_some h
    exact .removal (Queues.all_popBack_perm hu)
  | acquireById id =>
    obtain ⟨q, hu, rfl⟩ := popped_eq_some h
    exact .removal (Queues.removeFirst_spec hu).2

theorem Take.pops_iff (op : Take) : op.pops = true ↔ op.resource = .exclusive := by
  cases op <;> simp [pops, resource]

end TemplatePool

namespace LeaseMatch

open TemplatePool Tla PoolTasks

/-! ## Tasks that serve restores -/

/-- A call of `acquire_for_restore` or of `acquire_by_id_for_restore`. -/
inductive Request where
  | byKey (key : TemplateKey)
  | byId (id : String)
  deriving DecidableEq, Repr

/-- The template that the first section looks at. -/
def Request.found (p : TemplatePool) : Request → Option PooledTemplate
  | .byKey key => p.latest key
  | .byId id => p.findById id

/-- The template is one that the call asks for. -/
def Request.Names : Request → PooledTemplate → Prop
  | .byKey key, t => t.key = key
  | .byId id, t => t.id = id

/-- What a section looks a template up by. -/
def Take.request : Take → Request
  | .peekLatestForRestore key | .peekWithRef key | .acquire key => .byKey key
  | .peekByIdForRestore id | .peekByIdWithRef id | .acquireById id => .byId id

def Request.choose (p : TemplatePool) : Request → Option Take
  | .byKey key => p.acquireForRestore key
  | .byId id => p.acquireByIdForRestore id

/-- What is on record of an acquisition: the type that the first section read, what the
second one took, and whether the consumed marker is written. -/
structure Acquisition where
  request : Request
  seen : SnapshotType
  took : Option RestoreLeaseKind := none
  marked : Bool := false
  deriving DecidableEq, Repr

structure Task where
  serves : Option Acquisition
  pc : Pc

/-- The task returns a template from its acquisition, or is about to. -/
def Pc.Holds (l : Pc) : Prop := ∃ t, l = .writeMarker t ∨ ∃ popped, l = .lease t popped

/-- A task begins an acquisition or takes a step of the pool; what an acquisition takes and
writes goes on its record. -/
inductive Step : Effect → Shared → Task → Shared → Task → Prop where
  | inspect {s r t op} (hfound : r.found s.pool = some t) (hop : r.choose s.pool = some op) :
      Step .quiet s ⟨none, .idle⟩ s ⟨some ⟨r, t.snapshotType, none, false⟩, .take op⟩
  | take {s a op t}
      {p} (h : s.pool.take op = some (t, p)) :
      Step (.takes t.id) s ⟨a, .take op⟩ { s with pool := p }
        ⟨a.map fun a => { a with took := some op.resource },
          if op.pops then .writeMarker t else .lease t false⟩
  | mark {s a t d} (hd : templateDir t = some d) (hdir : d ∈ s.dirs) :
      Step .quiet s ⟨a, .writeMarker t⟩ s
        ⟨a.map fun a => { a with marked := true }, .lease t true⟩
  -- a step that leaves the task where it is
  | stay {e s s' a l} (h : PoolTasks.Step e s l s' l) : Step e s ⟨a, l⟩ s' ⟨a, l⟩
  -- any other step: the acquisition is over, or it has not begun
  | leave {e s s' a l l'}
      (h : PoolTasks.Step e s l s' l') (hl' : ¬ Pc.Holds l') : Step e s ⟨a, l⟩ s' ⟨none, l'⟩

/-- The pool and the tasks. -/
abbrev St := Sys Shared Task

/-- The tasks without their records. -/
def plain (s : St) : PoolTasks.St := ⟨s.shared, s.tasks.map Task.pc⟩

/-- A step of one task, and where it takes the task. -/
structure Move where
  task : ℕ
  effect : Effect
  goal : Task

/-- The steps. -/
def next (m : Move) : Action St :=
  TaskStep (fun g l g' l' => Step m.effect g l g' l' ∧ l' = m.goal) m.task

theorem next_of_step {s : St} {i : ℕ} {e : Effect} {g : Shared} {l l' : Task}
    (hi : s.tasks[i]? = some l) (h : Step e s.shared l g l') :
    next ⟨i, e, l'⟩ s ⟨g, s.tasks.set i l'⟩ :=
  TaskStep.of_step hi ⟨h, rfl⟩

section

variable (kindOf : TemplateKey → SnapshotType)

/-- Any number of idle tasks, over a pool in which no id occurs twice and a key has
templates of one kind. -/
def Init : StatePred St := fun s =>
  (∀ l ∈ s.tasks, l = ⟨none, .idle⟩) ∧ PoolTasks.Init (plain s) ∧ Filed kindOf s.shared.pool

/-- A template that is added is of the kind of its key. -/
def OneKind (m : Move) (_ : St) : Prop :=
  ∀ new, m.goal.pc = .addLevel new → new.snapshotType = kindOf new.key

/-- The kind that a call asks for. -/
def Request.kind (s : Shared) : Request → Option SnapshotType
  | .byKey key => some (kindOf key)
  | .byId id => s.kinds id

end

/-- Without the records, an acquisition that begins is a call that may be out of date by
the time it takes its template. -/
theorem Step.plain {e : Effect} {s s' : Shared} {l l' : Task} (h : Step e s l s' l') :
    PoolTasks.Step e s l.pc s' l'.pc := by
  cases h with
  | inspect => exact .callTake _
  | take h => exact .takeSome h
  | mark hd hdir => exact .markerOk hd hdir
  | stay h => exact h
  | leave h => exact h

theorem next_plain {m : Move} {s s' : St} (h : next m s s') :
    PoolTasks.next (m.task, m.effect) (plain s) (plain s') := by
  obtain ⟨l, _, hl, ⟨hstep, rfl⟩, hset⟩ := h
  refine ⟨l.pc, m.goal.pc, ?_, hstep.plain, ?_⟩
  · simp [LeaseMatch.plain, hl]
  · simp only [LeaseMatch.plain, hset, List.map_set]

/-! ## The resource of a type -/

/-- What a lease of a template of this type gives back, by the mode of the pool. -/
def resourceOf (mode : TemplateLeaseMode) : SnapshotType → Option RestoreLeaseKind
  | .environment => some .sharedLease
  | .warmFork => if mode = .shared then some .sharedRef else some .exclusive
  | .continuation => none

theorem leaseKind_eq (p : TemplatePool) (t : PooledTemplate) :
    p.leaseKind t = resourceOf p.leaseMode t.snapshotType := by
  unfold leaseKind resourceOf
  rcases t.snapshotType with _ | _ | _ <;> rfl

/-- The chosen section takes what belongs to the type that was read. -/
theorem choose_resource {p : TemplatePool} {r : Request} {t : PooledTemplate} {op : Take}
    (hfound : r.found p = some t) (hop : r.choose p = some op) :
    some op.resource = resourceOf p.leaseMode t.snapshotType ∧ Take.request op = r := by
  cases r with
  | byKey key =>
    simp only [Request.found] at hfound
    simp only [Request.choose, acquireForRestore, hfound, Option.map_some] at hop
    rcases hkind : t.snapshotType with _ | _ | _ <;> rw [hkind] at hop
    · cases hop
      exact ⟨rfl, rfl⟩
    · by_cases hmode : p.leaseMode = .shared
      · cases Option.some.inj ((if_pos hmode).symm.trans hop)
        simp [resourceOf, hmode, Take.resource, Take.request]
      · cases Option.some.inj ((if_neg hmode).symm.trans hop)
        simp [resourceOf, hmode, Take.resource, Take.request]
    · cases hop
  | byId i =>
    simp only [Request.found] at hfound
    simp only [Request.choose, acquireByIdForRestore, hfound, Option.map_some] at hop
    rcases hkind : t.snapshotType with _ | _ | _ <;> rw [hkind] at hop
    · cases hop
      exact ⟨rfl, rfl⟩
    · by_cases hmode : p.leaseMode = .shared
      · cases Option.some.inj ((if_pos hmode).symm.trans hop)
        simp [resourceOf, hmode, Take.resource, Take.request]
      · cases Option.some.inj ((if_neg hmode).symm.trans hop)
        simp [resourceOf, hmode, Take.resource, Take.request]
    · cases hop

/-! ## The invariant -/

section

variable (kindOf : TemplateKey → SnapshotType)

/-- The record `a` of a task at `l`. -/
structure Recorded (s : Shared) (a : Acquisition) (l : Pc) : Prop where
  /-- The type that was seen is the kind that the call asks for. -/
  seen : a.request.kind kindOf s = some a.seen
  choice : ∀ op, l = .take op → some op.resource = resourceOf s.pool.leaseMode a.seen ∧
    Take.request op = a.request
  took : ∀ t, l = .writeMarker t ∨ (∃ popped, l = .lease t popped) →
    a.took = resourceOf s.pool.leaseMode a.seen ∧ t.snapshotType = a.seen
  removed : ∀ t, l = .writeMarker t → a.took = some .exclusive
  lease : ∀ t popped, l = .lease t popped →
    (popped = true ↔ a.took = some .exclusive) ∧ (popped = true → a.marked = true)

/-- The invariant: what holds of the pool and the tasks without records, the kinds, and the
records. -/
structure Inv (s : St) : Prop where
  ids : IdInv (plain s)
  filed : Filed kindOf s.shared.pool
  kinds : ∀ l ∈ s.tasks, ∀ t ∈ l.pc.mentions, t.snapshotType = kindOf t.key
  records : ∀ l ∈ s.tasks, ∀ a, l.serves = some a → Recorded kindOf s.shared a l.pc

end

section

variable {kindOf : TemplateKey → SnapshotType} {e : Effect} {s s' : Shared} {a : Acquisition}
  {l l' m : Pc} {r : Request} {t : PooledTemplate} {op : Take} {p : TemplatePool}

theorem init_inv (s : St) (h : Init kindOf s) : Inv kindOf s := by
  obtain ⟨hidle, hids, hfiled⟩ := h
  refine ⟨init_idInv _ hids, hfiled, fun l hl t ht => ?_, fun l hl a ha => ?_⟩
  · rw [hidle l hl] at ht
    cases ht
  · rw [hidle l hl] at ha
    cases ha

theorem Request.found_spec (hfiled : Filed kindOf s.pool) (h : r.found s.pool = some t) :
    t ∈ s.queued ∧ r.Names t := by
  cases r with
  | byKey key => exact ⟨mem_of_latest h, (hfiled key t (List.mem_of_getLast? h)).1⟩
  | byId id => exact mem_of_findById h

/-- A section hands out a template that it was asked for. -/
theorem take_names (hfiled : Filed kindOf s.pool) (h : s.pool.take op = some (t, p)) :
    (Take.request op).Names t := by
  cases op with
  | peekLatestForRestore key =>
    obtain ⟨hu, -⟩ := pinned_eq_some h
    exact (Request.found_spec (r := .byKey key) hfiled hu).2
  | peekByIdForRestore id =>
    obtain ⟨hu, -⟩ := pinned_eq_some h
    exact (mem_of_findById hu).2
  | peekWithRef key =>
    obtain ⟨hu, -⟩ := takeRef_eq_some h
    exact (Request.found_spec (r := .byKey key) hfiled hu).2
  | peekByIdWithRef id =>
    obtain ⟨hu, -⟩ := takeRef_eq_some h
    exact (mem_of_findById hu).2
  | acquire key =>
    obtain ⟨q, hu, -⟩ := popped_eq_some h
    exact (hfiled key t (Queues.mem_of_popBack hu)).1
  | acquireById id =>
    obtain ⟨q, hu, -⟩ := popped_eq_some h
    simpa [Take.request, Request.Names] using (Queues.removeFirst_spec hu).1

/-- What a call asks for has the kind that it asks for. -/
theorem Request.Names.kind (h : r.Names t) (hfiled : Filed kindOf s.pool)
    (hreg : ∀ t ∈ s.queued, s.kinds t.id = some t.snapshotType) (ht : t ∈ s.queued) :
    r.kind kindOf s = some t.snapshotType := by
  cases r with
  | byKey key =>
    cases h
    exact congrArg some (hfiled.kind_of_mem ht).symm
  | byId id =>
    cases h
    exact hreg t ht

theorem Recorded.kept (ha : Recorded kindOf s a m) (h : PoolTasks.Step e s l s' l') :
    Recorded kindOf s' a m := by
  have hmode := h.sharedSpec.leaseMode
  have hseen : a.request.kind kindOf s' = some a.seen := by
    have hold := ha.seen
    rcases hreq : a.request with key | id <;> rw [hreq] at hold
    · exact hold
    · exact h.sharedSpec.kinds _ _ hold
  refine ⟨hseen, ?_, ?_, ha.removed, ha.lease⟩
  · rw [hmode]
    exact ha.choice
  · rw [hmode]
    exact ha.took

/-- The first section. -/
theorem Recorded.inspect (hfiled : Filed kindOf s.pool)
    (hreg : ∀ t ∈ s.queued, s.kinds t.id = some t.snapshotType)
    (hfound : r.found s.pool = some t) (hop : r.choose s.pool = some op) :
    Recorded kindOf s ⟨r, t.snapshotType, none, false⟩ (.take op) := by
  obtain ⟨hmem, hnames⟩ := Request.found_spec hfiled hfound
  refine ⟨hnames.kind hfiled hreg hmem, ?_, by simp, by simp, by simp⟩
  · rintro _ ⟨⟩
    exact choose_resource hfound hop

/-- The second section takes what the record says and hands out a template of the type that
was seen. -/
theorem Recorded.takes (ha : Recorded kindOf s a (.take op)) (hfiled : Filed kindOf s.pool)
    (hreg : ∀ t ∈ s.queued, s.kinds t.id = some t.snapshotType)
    (h : s.pool.take op = some (t, p)) :
    Recorded kindOf { s with pool := p } { a with took := some op.resource }
      (if op.pops then .writeMarker t else .lease t false) := by
  obtain ⟨hres, hreq⟩ := ha.choice op rfl
  have hmode : p.leaseMode = s.pool.leaseMode := by
    obtain ⟨-, htaken⟩ := take_spec h
    cases htaken <;> rfl
  have hkind : t.snapshotType = a.seen := by
    have hnames := (take_names hfiled h).kind hfiled hreg (take_spec h).1
    rw [hreq, ha.seen] at hnames
    exact (Option.some.inj hnames).symm
  have hpops := op.pops_iff
  by_cases hpop : op.pops = true
  · rw [if_pos hpop]
    refine ⟨ha.seen, by simp, ?_, ?_, by simp⟩
    · rintro u (hu | ⟨_, hu⟩)
      · cases hu
        exact ⟨hres.trans (by rw [hmode]), hkind⟩
      · simp at hu
    · intro u _
      rw [hpops.mp hpop]
  · rw [if_neg hpop]
    refine ⟨ha.seen, by simp, ?_, by simp, ?_⟩
    · rintro u (hu | ⟨_, hu⟩)
      · simp at hu
      · cases hu
        exact ⟨hres.trans (by rw [hmode]), hkind⟩
    · rintro u popped hu
      cases hu
      refine ⟨⟨fun hf => by simp at hf, fun hr => ?_⟩, by simp⟩
      exact absurd (hpops.mpr (Option.some.inj hr)) hpop

/-- The marker of a template that was taken out. -/
theorem Recorded.marks (ha : Recorded kindOf s a (.writeMarker t)) :
    Recorded kindOf s { a with marked := true } (.lease t true) := by
  refine ⟨ha.seen, by simp, ?_, by simp, ?_⟩
  · rintro u (hu | ⟨_, hu⟩)
    · simp at hu
    · cases hu
      exact ha.took t (Or.inl rfl)
  · rintro u popped hu
    cases hu
    exact ⟨by simp [ha.removed t rfl], by simp⟩

theorem Step.recorded {k k' : Task} (h : Step e s k s' k') (hfiled : Filed kindOf s.pool)
    (hreg : ∀ t ∈ s.queued, s.kinds t.id = some t.snapshotType)
    (hk : ∀ a, k.serves = some a → Recorded kindOf s a k.pc) :
    ∀ a, k'.serves = some a → Recorded kindOf s' a k'.pc := by
  intro a ha
  cases h with
  | inspect hfound hop =>
    cases ha
    exact .inspect hfiled hreg hfound hop
  | take h =>
    obtain ⟨a₀, ha₀, rfl⟩ := Option.map_eq_some_iff.mp ha
    exact (hk a₀ ha₀).takes hfiled hreg h
  | mark =>
    obtain ⟨a₀, ha₀, rfl⟩ := Option.map_eq_some_iff.mp ha
    exact (hk a₀ ha₀).marks
  | stay h => exact (hk a ha).kept h
  | leave => cases ha

theorem step_inv (m : Move) (s s' : St) (hok : OneKind kindOf m s) (h : next m s s')
    (hs : Inv kindOf s) : Inv kindOf s' := by
  have hids := step_idInv _ _ ⟨_, next_plain h⟩ hs.ids
  have hreg := hs.ids.shared.registered
  obtain ⟨l, _, hi, ⟨hstep, rfl⟩, hset⟩ := h
  have hl := hs.kinds l (List.mem_of_getElem? hi)
  refine ⟨hids, hstep.plain.filed hs.filed hl, ?_, ?_⟩
  · intro n hn
    rw [hset] at hn
    rcases List.mem_or_eq_of_mem_set hn with hold | rfl
    · exact hs.kinds n hold
    · exact hstep.plain.mentions_all (fun t ht => hs.filed.kind_of_mem ht) hl fun new _ => hok new
  · intro n hn
    rw [hset] at hn
    rcases List.mem_or_eq_of_mem_set hn with hold | rfl
    · exact fun a ha => (hs.records n hold a ha).kept hstep.plain
    · exact hstep.recorded hs.filed hreg (hs.records l (List.mem_of_getElem? hi))

/-- **What an acquisition took.** A section takes with a template what its resource says. In
every run in which the templates of a key are of one kind, when an acquisition has returned
`t`, what it took is what a lease of `t` gives back; the template is out of the pool and
marked as consumed if that is what it took. -/
theorem acquired_matches_lease (kindOf : TemplateKey → SnapshotType) (s : St)
    (h : Reachable (Init kindOf) (Guarded (OneKind kindOf) next) s) :
    (∀ op t p, s.shared.pool.take op = some (t, p) → Took s.shared.pool t op.resource p) ∧
    ∀ a t popped, ⟨some a, .lease t popped⟩ ∈ s.tasks →
      a.took = s.shared.pool.leaseKind t ∧ (popped = true ↔ a.took = some .exclusive) ∧
      (popped = true → a.marked = true) := by
  refine ⟨fun _ _ _ => take_took, fun a t popped ht => ?_⟩
  have hrec := (h.guarded_invariant init_inv step_inv).records _ ht a rfl
  obtain ⟨htook, hkind⟩ := hrec.took t (Or.inr ⟨popped, rfl⟩)
  refine ⟨?_, hrec.lease t popped rfl⟩
  rw [htook, leaseKind_eq, hkind]

end

/-! ## A template of another type in between -/

/-- The Environment template of a key. -/
def booted : PooledTemplate := { id := "t1", key := ⟨"k"⟩, snapshotType := .environment }

/-- A WarmFork template that is added under the same key. -/
def forked : PooledTemplate := { id := "w1", key := ⟨"k"⟩, snapshotType := .warmFork }

/-- A pool that lends WarmFork templates exclusively, with `booted` in it. -/
def lending : TemplatePool :=
  ⟨Queues.empty.pushBack booted.key booted, .empty, .empty, .empty, 4, 4, 10, .exclusive, true⟩

def lendingStore : Shared :=
  ⟨lending, [["environment", "t1"]], fun id => if id = "t1" then some .environment else none⟩

/-- Two tasks that have not begun. -/
def atRest : St := ⟨lendingStore, [⟨none, .idle⟩, ⟨none, .idle⟩]⟩

theorem atRest_init : Init (fun _ => .environment) atRest := by
  refine ⟨by simp [atRest], ⟨by simp [plain, atRest], by decide, by decide⟩, ?_⟩
  have hempty : Filed (fun _ => .environment) { lending with available := .empty } := nofun
  exact hempty.pushBack (t := booted) rfl

/-- What is on record of an acquisition by key that saw an Environment template. -/
def sawBooted (took : Option RestoreLeaseKind) : Acquisition :=
  ⟨.byKey ⟨"k"⟩, .environment, took, false⟩

/-- The first task has looked at the latest template of the key. -/
def inspected : St :=
  ⟨lendingStore, [⟨some (sawBooted none), .take (.peekLatestForRestore ⟨"k"⟩)⟩, ⟨none, .idle⟩]⟩

theorem inspected_reachable : Reachable (Init fun _ => .environment)
    (Guarded (OneKind fun _ => .environment) next) inspected :=
  (Reachable.init atRest_init).step
    ⟨⟨0, .quiet, ⟨some (sawBooted none), .take (.peekLatestForRestore ⟨"k"⟩)⟩⟩, nofun,
      next_of_step rfl (.inspect (r := .byKey ⟨"k"⟩) (t := booted) rfl rfl)⟩

/-- It takes the template it saw. -/
def pinned : St :=
  ⟨{ lendingStore with
      pool := { lending with inFlightRestores := lending.inFlightRestores.incr "t1" } },
    [⟨some (sawBooted (some .sharedLease)), .lease booted false⟩, ⟨none, .idle⟩]⟩

theorem pinned_reachable : Reachable (Init fun _ => .environment)
    (Guarded (OneKind fun _ => .environment) next) pinned :=
  inspected_reachable.step
    ⟨⟨0, .takes "t1", ⟨some (sawBooted (some .sharedLease)), .lease booted false⟩⟩, nofun,
      next_of_step rfl (.take (t := booted) rfl)⟩

theorem acquired_matches_pinned :
    (sawBooted (some .sharedLease)).took = pinned.shared.pool.leaseKind booted :=
  ((acquired_matches_lease _ pinned pinned_reachable).2 _ booted false (by simp [pinned])).1

/-- The second task has added `forked` before the first one takes its template. -/
def joined : St :=
  ⟨{ lendingStore.register forked ["warmfork", "w1"] with pool := lending.pushBack forked },
    inspected.tasks⟩

theorem joined_reachable : Reachable (Init fun _ => .environment) (AnyStep next) joined := by
  have hadd := inspected_reachable.unguarded.anyStep ⟨1, .quiet, ⟨none, .addLevel forked⟩⟩
    (next_of_step rfl (.leave (.callAdd rfl rfl rfl) (by simp [Pc.Holds])))
  have hlevel := hadd.anyStep ⟨1, .quiet, ⟨none, .addDepth forked⟩⟩
    (next_of_step rfl (.leave (.addBelow (by decide)) (by simp [Pc.Holds])))
  have hdepth := hlevel.anyStep ⟨1, .quiet, ⟨none, .addSave forked⟩⟩
    (next_of_step rfl (.leave (.addDepthBelow rfl) (by simp [Pc.Holds])))
  have hsave := hdepth.anyStep ⟨1, .quiet, ⟨none, .addPush forked⟩⟩
    (next_of_step rfl (.leave .addSaved (by simp [Pc.Holds])))
  exact hsave.anyStep ⟨1, .quiet, ⟨none, .idle⟩⟩
    (next_of_step rfl (.leave .addPush (by simp [Pc.Holds])))

/-- An acquisition by key sees an Environment template, a WarmFork template is added under
the key, and the acquisition pins that one: it counted an in-flight restore, and the lease
gives back an exclusive template. -/
theorem added_under_the_key :
    ∃ s : St, Reachable (Init fun _ => .environment) (AnyStep next) s ∧ ∃ a t popped,
      ⟨some a, .lease t popped⟩ ∈ s.tasks ∧ a.took = some .sharedLease ∧
        s.shared.pool.inFlightRestores.count t.id = 1 ∧
        s.shared.pool.leaseKind t = some .exclusive := by
  have htake : ∃ p, joined.shared.pool.take (.peekLatestForRestore ⟨"k"⟩) = some (forked, p) ∧
      p.inFlightRestores.count forked.id = 1 ∧ p.leaseKind forked = some .exclusive :=
    ⟨_, rfl, by decide, rfl⟩
  obtain ⟨p, htake, hcount, hlease⟩ := htake
  refine ⟨_, joined_reachable.anyStep ⟨0, .takes "w1", _⟩ (next_of_step rfl (.take htake)),
    sawBooted (some .sharedLease), forked, false, List.mem_cons_self, rfl, hcount, hlease⟩

end LeaseMatch

end Kuasar

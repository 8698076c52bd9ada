import Mathlib.Data.Finset.Basic
import Kuasar.Tla.Objects
import Kuasar.Sandbox.TemplateStart

/-!
# Sandbox.TemplatePins — the pins on a template and the VMs that run from it

A VM that was restored without a copy of its memory pages it in from the snapshot files of its
template for as long as it runs. The pool keeps the files of a template that is pinned: a restore of
it is in flight, a sandbox references it, or it was taken out and marked as consumed. The pin and
the process are two things: a start takes the pin before it has a VM and trades it in step by step,
and its rollbacks and the deletion of the sandbox stop the VM and give back the pin one after the
other, and any stop can fail.

Starts through the sandboxer and through the service, stops, deletes, destroys and the monitors of
the VMs interleave; the calls of the pool run to their end. A sandbox is locked where the source
holds its mutex.
-/

namespace Kuasar.TemplatePins

open TemplatePool TemplateStart

/-! ## The pool -/

/-- What keeps the files of a template. -/
inductive Pin where
  | restore (id : String)
  | reference (id : String)
  | exclusive (id : String)
  deriving DecidableEq, Repr

/-- The template that is pinned. -/
def Pin.id : Pin → String
  | .restore id | .reference id | .exclusive id => id

def leasePin (id : String) : RestoreLeaseKind → Pin
  | .sharedLease => .restore id
  | .sharedRef => .reference id
  | .exclusive => .exclusive id

/-- The pool, and the templates with a consumed marker in their directory. -/
structure Shared where
  pool : TemplatePool
  consumed : Finset String

namespace Shared

variable (g : Shared)

/-- The idle templates. -/
def ids : List String := g.pool.available.all.map (·.id)

/-- How often a pin is on. -/
def pins : Pin → ℕ
  | .restore id => g.pool.inFlightRestores.count id
  | .reference id => g.pool.inUseCount.count id
  | .exclusive id => if id ∈ g.consumed ∧ id ∉ g.ids then 1 else 0

/-- The template is referenced, a restore of it is in flight, or it is leased exclusively. -/
def Pinned (id : String) : Prop :=
  0 < g.pool.inUseCount.count id ∨ 0 < g.pool.inFlightRestores.count id ∨
    (id ∈ g.consumed ∧ id ∉ g.ids)

/-- An acquisition. A template that is taken out gets its marker. -/
def acquire (op : Option Take) (marker : Bool) : Shared × Option PooledTemplate :=
  match op with
  | none => (g, none)
  | some op =>
    match g.pool.acquireWith op marker with
    | (p, none) => ({ g with pool := p }, none)
    | (p, some t) => (⟨p, if op.pops then insert t.id g.consumed else g.consumed⟩, some t)

/-- The extra reference of a restore that leaves its memory on disk. -/
def pinExtra (pinned : Option String) : Shared :=
  { g with pool := TemplateStart.pinExtra g.pool pinned }

/-- `rollback_post_restore` gives it back. -/
def unpinExtra (removed : String → Bool) : Option String → Shared
  | some id => { g with pool := g.pool.derefCall removed id }
  | none => g

/-- `TemplateLease::complete`. -/
def leaseComplete (removed : String → Bool) (t : PooledTemplate) : RestoreLeaseKind → Shared
  | .sharedLease => { g with pool := g.pool.endRestoreCall removed t.id }
  | .sharedRef | .exclusive => g

/-- `TemplateLease::fail`. The marker of a template that is put back may stay. -/
def leaseFail (removed : String → Bool) (unmarked : Bool) (t : PooledTemplate) :
    RestoreLeaseKind → Shared
  | .sharedLease => { g with pool := g.pool.endRestoreCall removed t.id }
  | .sharedRef => { g with pool := g.pool.derefCall removed t.id }
  | .exclusive => ⟨g.pool.pushBack t, if unmarked then g.consumed.erase t.id else g.consumed⟩

/-- What a sandbox gives back at the end of its life. `cleanup_consumed` removes the directory and
the marker in it, if it can. -/
def dispose (removed : String → Bool) (cleaned : Bool) : RestoreMetadata.Disposal → Shared
  | .deref id => { g with pool := g.pool.derefCall removed id }
  | .cleanupConsumed id =>
    { g with consumed := if cleaned then g.consumed.erase id else g.consumed }
  | .keep | .deleteContinuation _ => g

end Shared

/-! ## The sandboxes -/

inductive Status where
  | created
  | running
  | stopped
  deriving DecidableEq, Repr

/-- A hypervisor process: the template that backs its memory, whether it may still run, and whether
a monitor waits for its end. -/
structure Vm where
  template : Option String
  alive : Bool
  monitored : Bool
  deriving DecidableEq, Repr

/-- A sandbox object. `vms` are the processes that were started for it; it knows the first. Kept for
the proof: `ending`, that a delete or destroy has read its record, and the pins `held` for it. -/
structure Sandbox where
  registered : Bool := true
  locked : Bool := false
  status : Status := .created
  record : RestoreMetadata := {}
  vms : List Vm := []
  ending : Bool := false
  held : Multiset Pin := 0

namespace Sandbox

variable (sb : Sandbox)

/-- The process is killed and has ended. -/
def kill : Sandbox := { sb with vms := sb.vms.modifyHead fun vm => { vm with alive := false } }

/-- The sandbox's `stop`: nothing is done for one that has stopped; else the VM is stopped, which
may fail. -/
def stop (ok : Bool) : Option Sandbox :=
  if sb.status = .stopped then some sb else if ok then some sb.kill else none

/-- Leave the lock, if the call holds it. -/
def unlock (holds : Bool) : Sandbox := if holds then { sb with locked := false } else sb

end Sandbox

/-- A start that has its lease. The service starts WarmFork templates only. -/
structure Start where
  template : PooledTemplate
  leaseMode : TemplateLeaseMode
  service : Bool
  warmFork : service = true → template.snapshotType = .warmFork

namespace Start

def sandboxer (p : TemplatePool) (t : PooledTemplate) : Start where
  template := t
  leaseMode :=
    match t.snapshotType with
    | .environment => .shared
    | _ => p.leaseMode
  service := false
  warmFork := nofun

def ofService (p : TemplatePool) (t : PooledTemplate) (h : t.snapshotType = .warmFork) : Start where
  template := t
  leaseMode := p.leaseMode
  service := true
  warmFork _ := h

variable (st : Start)

/-- `TemplateLease::new`. -/
def kind : RestoreLeaseKind :=
  match st.template.snapshotType with
  | .environment => .sharedLease
  | .warmFork => if st.leaseMode = .shared then .sharedRef else .exclusive
  | .continuation => .exclusive

def pin : Pin := leasePin st.template.id st.kind

/-- What `TemplateLease::complete` gives back. -/
def returned : Multiset Pin := if st.kind = .sharedLease then {st.pin} else 0

def record (cfg : Config) (p : TemplatePool) (before : RestoreMetadata) : RestoreMetadata :=
  if st.service then
    { serviceRecord before p st.template with leaseMode := some st.leaseMode }
  else TemplateStart.record cfg before p st.template st.leaseMode

/-- The template that backs the memory of the VM. -/
def backing (cfg : Config) : Option String :=
  if cfg.defaultMemoryRestoreMode = .copy then none else some st.template.id

end Start

/-- A template is asked for by key or by id. -/
inductive Request where
  | key (key : TemplateKey)
  | id (templateId : String)

/-- How the pool hands it out. -/
def Request.take (p : TemplatePool) : Request → Option Take
  | .key k => p.acquireForRestore k
  | .id tid => p.acquireByIdForRestore tid

/-- The sandboxer takes any template by key and WarmFork templates by id. -/
def Request.accepts (t : PooledTemplate) : Request → Prop
  | .key _ => True
  | .id _ => t.snapshotType = .warmFork

/-- The progress of a call. A start is `leased` and has `found` its sandbox, then holds its lock
(`starting` to `unpinned`), and ends its lease; the service takes the lock (`entered`) before the
lease and leaves it after. A delete (or a destroy, which leaves the lock once the VM has stopped)
carries what it decided to give back. -/
inductive Call where
  | leased (st : Start)
  | found (st : Start)
  | serviceFound
  | entered
  | starting (st : Start)
  | recorded (st : Start)
  | restored (st : Start)
  | committed (st : Start)
  | pinned (st : Start)
  | unpinned (st : Start)
  | failing (st : Start)
  | completing (st : Start)
  | deleteFound (destroy : Bool)
  | deleting (destroy : Bool) (d : RestoreMetadata.Disposal)
  | emptied (destroy : Bool) (d : RestoreMetadata.Disposal)
  | gave (destroy : Bool)

/-- What a move does that matters to other calls: lock the sandbox for a start, lock it to end it,
or stop the VM of a start that failed. -/
inductive Effect where
  | quiet
  | starts
  | ends
  | kills (ok : Bool)

def extraPins (r : RestoreMetadata) : Multiset Pin :=
  match r.envNonCopyPinned with
  | some id => {.reference id}
  | none => 0

def pinsOf : RestoreMetadata.Disposal → Multiset Pin
  | .deref id => {.reference id}
  | .cleanupConsumed id => {.exclusive id}
  | .keep | .deleteContinuation _ => 0

/-- What a delete or a destroy gives back. -/
def disposalOf (destroy : Bool) (r : RestoreMetadata) : RestoreMetadata.Disposal :=
  if destroy then r.onDestroy else r.onDelete

inductive Move (cfg : Config) : Effect → Shared → Sandbox → Option Call →
    Shared → Sandbox → Option Call → Prop where
  -- the sandboxer takes a lease; a template by id of the wrong kind is left as it was taken
  | lease {g g' sb t} (req : Request) (marker : Bool)
      (h : g.acquire (req.take g.pool) marker = (g', some t)) (hreq : req.accepts t) :
      Move cfg .quiet g sb none g' sb (some (.leased (.sandboxer g.pool t)))
  | miss {g g' sb} (req : Request) (marker : Bool)
      (h : g.acquire (req.take g.pool) marker = (g', none)) :
      Move cfg .quiet g sb none g' sb none
  | mismatch {g g' sb t} (req : Request) (marker : Bool)
      (h : g.acquire (req.take g.pool) marker = (g', some t)) (hreq : ¬ req.accepts t) :
      Move cfg .quiet g sb none g' sb none
  -- the checks before start_from_snapshot, and its lookup of the sandbox
  | checkFail {g sb st} : Move cfg .quiet g sb (some (.leased st)) g sb (some (.failing st))
  | find {g sb st} (h : sb.registered = true) :
      Move cfg .quiet g sb (some (.leased st)) g sb (some (.found st))
  | lockStart {g sb st} (h : sb.locked = false) :
      Move cfg .starts g sb (some (.found st)) g { sb with locked := true } (some (.starting st))
  -- the service locks a created sandbox first
  | findService {g sb} (h : sb.registered = true) :
      Move cfg .quiet g sb none g sb (some .serviceFound)
  | refuse {g sb} (h : sb.status ≠ .created) : Move cfg .quiet g sb (some .serviceFound) g sb none
  | lockService {g sb} (h : sb.locked = false) (hst : sb.status = .created) :
      Move cfg .starts g sb (some .serviceFound) g { sb with locked := true } (some .entered)
  | serviceMiss {g g' sb} (req : Request) (marker : Bool)
      (h : g.acquire (req.take g.pool) marker = (g', none)) :
      Move cfg .quiet g sb (some .entered) g' { sb with locked := false } none
  | serviceMismatch {g g' sb t} (req : Request)
      (marker : Bool) (h : g.acquire (req.take g.pool) marker = (g', some t))
      (hkind : t.snapshotType ≠ .warmFork) :
      Move cfg .quiet g sb (some .entered) g' { sb with locked := false } none
  | serviceLease {g g' sb t} (req : Request) (marker : Bool)
      (h : g.acquire (req.take g.pool) marker = (g', some t)) (hkind : t.snapshotType = .warmFork) :
      Move cfg .quiet g sb (some .entered) g' sb (some (.starting (.ofService g.pool t hkind)))
  -- pre_start or prepare_network fails
  | preFail {g sb st} :
      Move cfg .quiet g sb (some (.starting st)) g (sb.unlock (!st.service)) (some (.failing st))
  | record {g sb st} :
      Move cfg .quiet g sb (some (.starting st)) g
        { sb with record := st.record cfg g.pool sb.record } (some (.recorded st))
  -- the restore fails before the VM has any memory; a hypervisor process may stay
  | restoreFail {g sb st} (left : List Vm) (hleft : left = [] ∨ left = [⟨none, true, false⟩]) :
      Move cfg .quiet g sb (some (.recorded st)) g
        (Sandbox.unlock { sb with record := {}, vms := left ++ sb.vms } (!st.service))
        (some (.failing st))
  | restore {g sb st} :
      Move cfg .quiet g sb (some (.recorded st)) g
        { sb with vms := ⟨st.backing cfg, true, false⟩ :: sb.vms, held := st.pin ::ₘ sb.held }
        (some (.restored st))
  -- the VM is killed in vm.restore, or rollback_vm stops it: an error is logged only
  | restoreKill {g sb st} (ok : Bool) :
      Move cfg (.kills ok) g sb (some (.restored st)) g
        (Sandbox.unlock
          { (if ok then sb.kill else sb) with record := {}, held := sb.held - {st.pin} }
          (!st.service))
        (some (.failing st))
  | commit {g sb st} :
      Move cfg .quiet g sb (some (.restored st)) g { sb with status := .running }
        (some (.committed st))
  -- the extra reference is taken and the monitor spawned
  | pin {g sb st} :
      Move cfg .quiet g sb (some (.committed st)) (g.pinExtra sb.record.envNonCopyPinned)
        { sb with
          vms := sb.vms.modifyHead fun vm => { vm with monitored := true },
          held := extraPins sb.record + sb.held }
        (some (.pinned st))
  -- rollback_post_restore gives back the extra reference, and then stops the VM
  | unpin {g sb st} (removed : String → Bool) :
      Move cfg .quiet g sb (some (.pinned st))
        (g.unpinExtra removed sb.record.envNonCopyPinned)
        { sb with record := {}, held := sb.held - extraPins sb.record } (some (.unpinned st))
  | rollbackStop {g sb st} (ok : Bool) :
      Move cfg (.kills ok) g sb (some (.unpinned st)) g
        (Sandbox.unlock { (sb.stop ok).getD sb with held := sb.held - {st.pin} } (!st.service))
        (some (.failing st))
  -- the start is done; the pin of a shared lease is given back next, the others are the sandbox's
  | finish {g sb st} :
      Move cfg .quiet g sb (some (.pinned st)) g
        (Sandbox.unlock { sb with held := sb.held - st.returned } (!st.service))
        (some (.completing st))
  | complete {g sb st} (removed : String → Bool) :
      Move cfg .quiet g sb (some (.completing st)) (g.leaseComplete removed st.template st.kind)
        (sb.unlock st.service) none
  | leaseFail {g sb st} (removed : String → Bool) (unmarked : Bool) :
      Move cfg .quiet g sb (some (.failing st))
        (g.leaseFail removed unmarked st.template st.kind) (sb.unlock st.service) none
  -- delete and destroy_sandbox
  | findDelete {g sb} (destroy : Bool) (h : sb.registered = true) :
      Move cfg .quiet g sb none g sb (some (.deleteFound destroy))
  | lockDelete {g sb destroy} (h : sb.locked = false) :
      Move cfg .ends g sb (some (.deleteFound destroy)) g
        { sb with locked := true, ending := true }
        (some (.deleting destroy (disposalOf destroy sb.record)))
  | deleteStopFail {g sb destroy d} (h : sb.stop false = none) :
      Move cfg .quiet g sb (some (.deleting destroy d)) g
        { sb with locked := false, ending := false } none
  | deleteStop {g sb sb' destroy d} (h : sb.stop true = some sb') :
      Move cfg .quiet g sb (some (.deleting destroy d)) g (sb'.unlock destroy)
        (some (.emptied destroy d))
  -- the cgroups, the mounts or the directory cannot be removed
  | deleteFail {g sb destroy d} :
      Move cfg .quiet g sb (some (.emptied destroy d)) g
        (Sandbox.unlock { sb with ending := false } (!destroy)) none
  | deleteGive {g sb destroy d} (removed : String → Bool) (cleaned : Bool) :
      Move cfg .quiet g sb (some (.emptied destroy d)) (g.dispose removed cleaned d)
        { sb with held := sb.held - pinsOf d } (some (.gave destroy))
  | remove {g sb destroy} :
      Move cfg .quiet g sb (some (.gave destroy)) g
        (Sandbox.unlock { sb with registered := false } (!destroy)) none
  -- stop
  | stop {g sb sb'} (ok : Bool) (h : sb.locked = false)
      (hstop : sb.stop ok = some sb') : Move cfg .quiet g sb none g sb' none
  -- a process ends, and its monitor sees it
  | exit {g sb vm} (i : ℕ) (hi : sb.vms[i]? = some vm) :
      Move cfg .quiet g sb none g
        { sb with vms := sb.vms.set i { vm with alive := false } } none
  | monitor {g sb vm} (i : ℕ) (h : sb.locked = false)
      (hi : sb.vms[i]? = some vm) (hm : vm.monitored = true) (hdead : vm.alive = false) :
      Move cfg .quiet g sb none g
        { sb with status := .stopped, vms := sb.vms.set i { vm with monitored := false } } none

/-! ## The system -/

open Tla

/-- The pool, the sandboxes, and the calls. -/
abbrev St := World Shared Sandbox Call

/-- Task `k` makes a move on sandbox `i`, or a template with a new id is added to the pool. -/
inductive Label where
  | task (k i : ℕ) (e : Effect)
  | add (t : PooledTemplate)

/-- The steps. -/
inductive next (cfg : Config) : Label → St → St → Prop where
  | task {s s' k i e} (h : ObjectStep (Move cfg) k i e s s') : next cfg (.task k i e) s s'
  | add {s t} (hid : t.id ∉ s.shared.ids) (hconsumed : t.id ∉ s.shared.consumed) :
      next cfg (.add t) s
        { s with shared := { s.shared with pool := s.shared.pool.pushBack t } }

/-- Any pool in which no id occurs twice, and any number of new sandboxes and of tasks. -/
def Init : StatePred St := fun s =>
  s.shared.ids.Nodup ∧ (∀ sb ∈ s.objects, sb = {}) ∧ ∀ l ∈ s.tasks, l = none

/-! ## The property -/

/-- The template of every VM that may still run and that pages its memory in from it is pinned, and
no collection chooses it. -/
def Safe : StatePred St := fun s =>
  ∀ sb ∈ s.objects, ∀ vm ∈ sb.vms, vm.alive = true → ∀ id, vm.template = some id →
    s.shared.Pinned id ∧ ∀ total, ∀ t ∈ s.shared.pool.gcBatch total, t.id ≠ id

/-- The process does not page from a template any more, and no monitor waits for it. -/
structure Vm.Over (vm : Vm) : Prop where
  template : vm.alive = true → vm.template = none
  monitored : vm.monitored = false

/-- A sandbox is started only when it is not being deleted and its earlier VMs are over, it is ended
by one delete or destroy, and a start that fails can stop its VM. -/
def Orderly : Label → StatePred St
  | .task _ i .starts, s => ∀ sb, s.objects[i]? = some sb →
      sb.ending = false ∧ ∀ vm ∈ sb.vms, vm.Over
  | .task _ i .ends, s => ∀ sb, s.objects[i]? = some sb → sb.ending = false
  | .task _ _ (.kills ok), _ => ok = true
  | _, _ => True

end Kuasar.TemplatePins

import Kuasar.Tla.Locks

/-!
# Sandbox.LockOrder — no circle of tasks that wait for locks

The sandboxer's tasks share the map of the sandboxes (a read-write lock), one
mutex for each sandbox, the mutex around a sandbox's agent client, and the four
mutexes of the template pool. `vmm/sandbox/src/template/pool.rs` states an order
for three of the pool's; over the whole sandboxer the order is not written down
anywhere. It is

  map → sandbox → agent client → restores → in-use counts → templates → refills

and every operation keeps to it: a listing or a collection locks the sandboxes
one at a time while it reads the map, whoever holds a sandbox may call the agent
or the pool but never asks for the map again, and an operation that changes the
map holds nothing when it does.

The functions below are the source's functions as far as their locks go. A guard
that is a temporary of a `let` is given back at the end of that statement, one
that is bound is held to the end of its block, and one in the head of an `if let`
is held over the body. A lookup by id may find another sandbox each time, since
the id may have been removed and created again in between.
-/

namespace Kuasar.LockOrder

open Tla Tla.Code

/-- The locks: the sandboxer's map, a sandbox's own, its agent client's, and the
fields of the pool. -/
inductive Lock where
  | sandboxes
  | sandbox (i : ℕ)
  | client (i : ℕ)
  | inFlightRestores
  | inUseCount
  | available
  | inFlightRefills
deriving DecidableEq, Repr

/-- The order in which the locks are taken. -/
@[simp] def rank : Lock → ℕ
  | .sandboxes => 0
  | .sandbox _ => 1
  | .client _ => 2
  | .inFlightRestores => 3
  | .inUseCount => 4
  | .available => 5
  | .inFlightRefills => 6

/-! ## The template pool -/

/-- The operations of the pool, and the ends of a lease on one of its templates. -/
inductive PoolOp where
  | loadFromDisk
  | add
  | beginRefill
  | endRefill
  | inFlightCountForKey
  | inFlightCount
  | waitForTemplate
  | waitAndPeekWithRef
  | acquireForRestore
  | waitAndAcquireForRestore
  | acquireByIdForRestore
  | acquire
  | release
  | depth
  | peekWithRef
  | peekLatestForRestore
  | endRestore
  | deref
  | refTemplate
  | rebuildActiveRefs
  | gcIfNeeded
  | totalDepth
  | keyCount
  | depthByKey
  | depthByType
  | removeById
  | listTemplates
  | getTemplate
  | activeSharedRefs
  | inFlightRestoresByTemplate
  | gcBlockedTemplates
  | evictByKind
  | leaseComplete
  | leaseFail
deriving DecidableEq, Repr

/-- What may be removed is decided under three locks. -/
def candidates : Code Lock :=
  mutex .inFlightRestores (mutex .inUseCount (touch .available))

def gcIfNeeded : Code Lock :=
  block [touch .available, candidates, loop (touch .available), touch .available]

def endRestore : Code Lock := block [touch .inFlightRestores, gcIfNeeded]

def deref : Code Lock := block [touch .inUseCount, gcIfNeeded]

/-- A template is taken out, and put back if its marker cannot be written. The
same for a template asked for by its id. -/
def acquire : Code Lock := block [touch .available, touch .available]

/-- A template is counted as in use while the templates are locked. The same for a
template asked for by its id. -/
def peekWithRef : Code Lock := mutex .inUseCount (touch .available)

/-- A restore is counted while the templates are locked. The same for a template
asked for by its id. -/
def peekLatestForRestore : Code Lock := mutex .inFlightRestores (touch .available)

/-- The kind of the template is read first, and decides how it is taken. -/
def acquireForRestore : Code Lock :=
  block [touch .available, oneOf [peekLatestForRestore, peekWithRef, acquire]]

/-- Waiting for a refill: try, look at the refills in flight, and try again. -/
def waiting (attempt : Code Lock) : Code Lock := loop (block [attempt, touch .inFlightRefills])

def PoolOp.code : PoolOp → Code Lock
  | loadFromDisk => loop (touch .available)
  | add =>
    block [
      -- room below the watermark
      touch .available, candidates, touch .available,
      -- room below the limit of the key
      candidates, touch .available,
      touch .available, touch .available]
  | beginRefill | endRefill | inFlightCountForKey | inFlightCount => touch .inFlightRefills
  | waitForTemplate => waiting LockOrder.acquire
  | waitAndPeekWithRef => waiting LockOrder.peekWithRef
  | acquireForRestore | acquireByIdForRestore => LockOrder.acquireForRestore
  | waitAndAcquireForRestore => waiting LockOrder.acquireForRestore
  | acquire => LockOrder.acquire
  | peekWithRef => LockOrder.peekWithRef
  | peekLatestForRestore => LockOrder.peekLatestForRestore
  | endRestore => LockOrder.endRestore
  | deref => LockOrder.deref
  | refTemplate | rebuildActiveRefs | activeSharedRefs => touch .inUseCount
  | gcIfNeeded => LockOrder.gcIfNeeded
  | totalDepth | keyCount | depth | depthByKey | depthByType => touch .available
  | release | listTemplates | getTemplate => touch .available
  | removeById => block [candidates, touch .available]
  | inFlightRestoresByTemplate => touch .inFlightRestores
  | gcBlockedTemplates => candidates
  | evictByKind => block [candidates, loop (touch .available)]
  | leaseComplete => oneOf [LockOrder.endRestore, skip]
  | leaseFail => oneOf [LockOrder.endRestore, LockOrder.deref, touch .available]

/-- The pool's operations keep to the order among the pool's locks, and may be
called wherever none of those is held. -/
theorem above_pool (op : PoolOp) {n : ℕ} (hn : n ≤ 3) : op.code.Above rank n := by
  apply Above.mono _ hn
  cases op <;>
    simp [PoolOp.code, candidates, gcIfNeeded, endRestore, deref, acquire, peekWithRef,
      peekLatestForRestore, acquireForRestore, waiting]

/-! ## A sandbox

The methods of a sandbox run under its lock, which their callers hold. They take
the lock of the agent client for one call at a time. -/

/-- The methods of a sandbox that lead to a call of its agent, and those that call
none. -/
inductive SandboxOp where
  | initClient
  | initClientFailFast
  | setupSandbox
  | syncClock
  | reseedGuestEntropy
  | injectWarmForkTask
  | checkInjectSocket
  | pushSandboxFiles
  | forwardEvents
  | refreshInstanceIdentity
  | startFromSnapshot
  | start
  | stop
  | appendContainer
  | updateContainer
  | removeContainer
deriving DecidableEq, Repr

/-- A call of the agent of sandbox `i`. -/
def agent (i : ℕ) : Code Lock := touch (.client i)

/-- Files, interfaces and routes, and the clock. -/
def refreshInstanceIdentity (i : ℕ) : Code Lock := block [agent i, agent i, agent i]

/-- The code of a method of sandbox `i`. -/
def SandboxOp.code (i : ℕ) : SandboxOp → Code Lock
  | initClient | initClientFailFast | setupSandbox | syncClock | reseedGuestEntropy
  | injectWarmForkTask | checkInjectSocket | pushSandboxFiles | forwardEvents => agent i
  | refreshInstanceIdentity => LockOrder.refreshInstanceIdentity i
  | startFromSnapshot =>
    block [
      agent i,
      oneOf [
        -- warm fork: identity, entropy, tasks
        block [LockOrder.refreshInstanceIdentity i, agent i, agent i],
        -- continuation: the clock
        agent i,
        -- environment: files, setup, entropy
        block [agent i, agent i, agent i]],
      agent i]
  | start => block [agent i, agent i, agent i, agent i]
  | stop | removeContainer => skip
  | appendContainer | updateContainer =>
    -- adopting a container, pushing mounted files, pushing its configuration
    loop (agent i)

/-- The methods of a sandbox may be called wherever no client and no lock of the
pool is held. -/
theorem above_method (i : ℕ) (op : SandboxOp) {n : ℕ} (hn : n ≤ 2) :
    (op.code i).Above rank n := by
  apply Above.mono _ hn
  cases op <;> simp [SandboxOp.code, agent, refreshInstanceIdentity]

/-! ## The sandboxer and its service -/

section Tasks

def readMap : Code Lock := locked .sandboxes .read skip

/-- A sandbox is put into the map, or removed from it. -/
def writeMap : Code Lock := locked .sandboxes .write skip

/-- A sandbox is looked up, and used after the map was given back. -/
def lookup (body : ℕ → Code Lock) : Code Lock := block [readMap, pick body]

/-- A sandbox is looked up, and used while the map is read. -/
def lookupHolding (body : ℕ → Code Lock) : Code Lock := locked .sandboxes .read (pick body)

/-- Every sandbox is visited while the map is read. -/
def forEach (body : ℕ → Code Lock) : Code Lock := locked .sandboxes .read (loop (pick body))

/-- What is done while sandbox `i` is locked. -/
def hold (i : ℕ) (body : List (Code Lock)) : Code Lock := mutex (.sandbox i) (block body)

/-- Sandbox `i` is locked to read or write what is known of it. -/
def glance (i : ℕ) : Code Lock := touch (.sandbox i)

def parseSnapshotIntent : Code Lock := lookup glance

/-- The template is pinned after the restore; a failure after that takes the pin
back and stops the sandbox. -/
def startFromSnapshot : Code Lock :=
  lookup fun i => hold i [
    SandboxOp.startFromSnapshot.code i, PoolOp.refTemplate.code,
    PoolOp.deref.code, SandboxOp.stop.code i]

def restoreLeased : Code Lock :=
  block [startFromSnapshot, oneOf [PoolOp.leaseComplete.code, PoolOp.leaseFail.code]]

/-- The pod's annotations are read before the restore. -/
def restoreFromWarmForkTemplate : Code Lock :=
  oneOf [PoolOp.leaseFail.code, block [lookup glance, PoolOp.leaseFail.code],
    block [lookup glance, restoreLeased]]

def startWithTemplateKey : Code Lock :=
  block [
    PoolOp.acquireForRestore.code, PoolOp.inFlightCountForKey.code,
    PoolOp.waitAndAcquireForRestore.code,
    oneOf [PoolOp.leaseFail.code, restoreFromWarmForkTemplate, restoreLeased]]

def startWithTemplateId : Code Lock :=
  block [
    PoolOp.acquireByIdForRestore.code,
    oneOf [PoolOp.leaseFail.code, restoreFromWarmForkTemplate]]

/-- The lookups stand in the heads of two `if let`s. -/
def startWithContinuationSnapshot : Code Lock :=
  block [lookupHolding glance, lookupHolding glance, startFromSnapshot]

/-- A fresh boot after the restores that were tried. -/
def start : Code Lock :=
  block [
    parseSnapshotIntent,
    oneOf [startWithContinuationSnapshot, startWithTemplateId, startWithTemplateKey],
    startWithTemplateKey,
    lookup fun i => hold i [SandboxOp.start.code i, SandboxOp.stop.code i]]

/-- The template is given back under the sandbox's lock; the map is written after
it was given back. -/
def delete : Code Lock :=
  block [lookup fun i => hold i [SandboxOp.stop.code i, PoolOp.deref.code], writeMap]

def createTemplateWorker : Code Lock := block [PoolOp.add.code, PoolOp.depth.code]

def createFromSandbox : Code Lock :=
  lookup fun i => hold i [
    SandboxOp.checkInjectSocket.code i, PoolOp.add.code, PoolOp.depth.code]

def createSandboxSlot : Code Lock := block [readMap, writeMap]

/-- Here the sandbox is given back before the template is. -/
def destroySandbox : Code Lock :=
  block [lookup fun i => hold i [SandboxOp.stop.code i], PoolOp.deref.code, writeMap]

/-- The template is acquired under the sandbox's lock, and the lease ends there. -/
def restoreSandboxWarmFork : Code Lock :=
  lookup fun i => hold i [
    oneOf [PoolOp.acquireByIdForRestore.code, PoolOp.acquireForRestore.code],
    oneOf [
      PoolOp.leaseFail.code,
      block [
        SandboxOp.startFromSnapshot.code i, SandboxOp.stop.code i,
        oneOf [PoolOp.leaseFail.code, PoolOp.leaseComplete.code]]]]

def restoreSandboxContinuation : Code Lock :=
  lookup fun i => hold i [SandboxOp.startFromSnapshot.code i, SandboxOp.stop.code i]

/-- The tasks: the requests of the container manager, the requests of the service,
and the tasks that run in the background. -/
inductive Task where
  | create
  | start
  | update
  | stop
  | delete
  | method (op : SandboxOp)
  | monitor
  | recoverSandbox
  | recover
  | continuationGc
  | maintenance
  | refill
  | createTemplate
  | templateCreate
  | sandboxRun
  | sandboxDestroy
  | sandboxList
  | sandboxGet
  | poolStatus
  | templateList
  | templateGet
  | poolRefill
  | poolGc
  | initTemplatePool
  | pool (op : PoolOp)

def Task.code : Task → Code Lock
  | create => block [readMap, writeMap]
  | start => LockOrder.start
  | update => lookup glance
  | stop => lookup fun i => hold i [SandboxOp.stop.code i]
  | delete => LockOrder.delete
  | method op => lookup fun i => hold i [op.code i]
  | monitor => pick fun i => block [glance i, glance i]
  | recoverSandbox =>
    pick fun i => block [
      SandboxOp.initClientFailFast.code i, SandboxOp.stop.code i, SandboxOp.syncClock.code i,
      SandboxOp.forwardEvents.code i, writeMap]
  | recover => block [forEach glance, PoolOp.rebuildActiveRefs.code]
  | continuationGc => loop (forEach glance)
  | maintenance =>
    loop (block [
      PoolOp.depth.code, PoolOp.inFlightCountForKey.code, loop PoolOp.beginRefill.code,
      PoolOp.gcIfNeeded.code, PoolOp.totalDepth.code, PoolOp.gcBlockedTemplates.code])
  | refill => block [createTemplateWorker, PoolOp.endRefill.code]
  | createTemplate => createTemplateWorker
  | templateCreate => createFromSandbox
  | sandboxRun =>
    block [createSandboxSlot, oneOf [restoreSandboxWarmFork, restoreSandboxContinuation]]
  | sandboxDestroy => block [readMap, destroySandbox]
  | sandboxList => forEach glance
  | sandboxGet => lookupHolding glance
  | poolStatus =>
    block [
      PoolOp.totalDepth.code, PoolOp.keyCount.code, PoolOp.inFlightCount.code,
      PoolOp.depthByType.code, PoolOp.depthByKey.code, PoolOp.activeSharedRefs.code,
      PoolOp.inFlightRestoresByTemplate.code, PoolOp.gcBlockedTemplates.code]
  | templateList => PoolOp.listTemplates.code
  | templateGet => PoolOp.getTemplate.code
  | poolRefill =>
    block [
      PoolOp.depth.code, PoolOp.inFlightCountForKey.code, loop PoolOp.beginRefill.code,
      PoolOp.inFlightCountForKey.code]
  | poolGc => block [PoolOp.removeById.code, PoolOp.totalDepth.code]
  | initTemplatePool =>
    block [PoolOp.loadFromDisk.code, PoolOp.totalDepth.code, PoolOp.keyCount.code]
  | pool op => op.code

end Tasks

/-! ## The order is kept -/

/-- A lookup that gives the map back puts no condition on what follows. -/
theorem above_lookup {body : ℕ → Code Lock} (h : ∀ i, (body i).Above rank 0) :
    (lookup body).Above rank 0 := by
  simpa [lookup, readMap] using h

/-- What is done under the lock of a sandbox comes after that lock. -/
theorem above_lookup_hold {body : ℕ → List (Code Lock)}
    (h : ∀ i, ∀ c ∈ body i, c.Above rank 2) :
    (lookup fun i => hold i (body i)).Above rank 0 := by
  apply above_lookup
  intro i
  simpa [hold] using h i

theorem above_lookup_glance : (lookup glance).Above rank 0 := by
  apply above_lookup
  simp [glance]

theorem above_lookupHolding_glance : (lookupHolding glance).Above rank 0 := by
  simp [lookupHolding, glance]

theorem above_forEach_glance : (forEach glance).Above rank 0 := by
  simp [forEach, glance]

theorem above_startFromSnapshot : startFromSnapshot.Above rank 0 := by
  apply above_lookup_hold
  simp [above_pool, above_method]

theorem above_restoreLeased : restoreLeased.Above rank 0 := by
  simp [restoreLeased, above_startFromSnapshot, above_pool]

theorem above_restoreFromWarmForkTemplate : restoreFromWarmForkTemplate.Above rank 0 := by
  simp [restoreFromWarmForkTemplate, above_lookup_glance, above_restoreLeased, above_pool]

theorem above_startWithTemplateKey : startWithTemplateKey.Above rank 0 := by
  simp [startWithTemplateKey, above_restoreLeased, above_restoreFromWarmForkTemplate, above_pool]

theorem above_startWithTemplateId : startWithTemplateId.Above rank 0 := by
  simp [startWithTemplateId, above_restoreFromWarmForkTemplate, above_pool]

theorem above_startWithContinuationSnapshot : startWithContinuationSnapshot.Above rank 0 := by
  simp [startWithContinuationSnapshot, above_lookupHolding_glance, above_startFromSnapshot]

theorem above_start : start.Above rank 0 := by
  have hboot : (lookup fun i =>
      hold i [SandboxOp.start.code i, SandboxOp.stop.code i]).Above rank 0 := by
    apply above_lookup_hold
    simp [above_method]
  simp [start, parseSnapshotIntent, above_lookup_glance, above_startWithContinuationSnapshot,
    above_startWithTemplateId, above_startWithTemplateKey, hboot]

theorem above_delete : delete.Above rank 0 := by
  have hbody : (lookup fun i =>
      hold i [SandboxOp.stop.code i, PoolOp.deref.code]).Above rank 0 := by
    apply above_lookup_hold
    simp [above_pool, above_method]
  simp [delete, writeMap, hbody]

theorem above_destroySandbox : destroySandbox.Above rank 0 := by
  have hbody : (lookup fun i => hold i [SandboxOp.stop.code i]).Above rank 0 := by
    apply above_lookup_hold
    simp [above_method]
  simp [destroySandbox, writeMap, hbody, above_pool]

theorem above_createFromSandbox : createFromSandbox.Above rank 0 := by
  apply above_lookup_hold
  simp [above_pool, above_method]

theorem above_restoreSandboxWarmFork : restoreSandboxWarmFork.Above rank 0 := by
  apply above_lookup_hold
  simp [above_pool, above_method]

theorem above_restoreSandboxContinuation : restoreSandboxContinuation.Above rank 0 := by
  apply above_lookup_hold
  simp [above_method]

theorem above_task (t : Task) : t.code.Above rank 0 := by
  cases t with
  | create => simp [Task.code, readMap, writeMap]
  | start => exact above_start
  | update => exact above_lookup_glance
  | stop | method op =>
    apply above_lookup_hold
    simp [above_method]
  | delete => exact above_delete
  | monitor => simp [Task.code, glance]
  | recoverSandbox => simp [Task.code, above_method, writeMap]
  | recover => simp [Task.code, above_forEach_glance, above_pool]
  | continuationGc | sandboxList => exact above_forEach_glance
  | maintenance | poolStatus | poolRefill | poolGc | initTemplatePool =>
    simp [Task.code, above_pool]
  | refill | createTemplate => simp [Task.code, createTemplateWorker, above_pool]
  | templateCreate => exact above_createFromSandbox
  | sandboxRun =>
    simp [Task.code, createSandboxSlot, readMap, writeMap, above_restoreSandboxWarmFork,
      above_restoreSandboxContinuation]
  | sandboxDestroy => simp [Task.code, readMap, above_destroySandbox]
  | sandboxGet => exact above_lookupHolding_glance
  | templateList => exact above_pool .listTemplates (Nat.zero_le 3)
  | templateGet => exact above_pool .getTemplate (Nat.zero_le 3)
  | pool op => exact above_pool op (Nat.zero_le 3)

/-! ## Runs of the tasks -/

def Program (c : Code Lock) : Prop := ∃ t : Task, c = t.code

/-- The states that any number of tasks, started at any time and running in any
interleaving, can reach. -/
abbrev Running : StatePred (LockSys Lock) := Reachable LockSys.Init (LockSys.Next Program)

theorem noCycle_of_running {s : LockSys Lock} (h : Running s) : s.NoCycle := by
  have horder : ∀ c, Program c → c.Above rank 0 := by
    rintro c ⟨t, rfl⟩
    exact above_task t
  exact LockSys.no_cycle horder h

/-- Whatever tasks run, at no time do some of them wait for each other in a circle. -/
theorem tasks_never_wait_in_circle (s : LockSys Lock) (h : Running s) (i : ℕ) :
    ¬ Relation.TransGen s.Waits i i :=
  noCycle_of_running h i

/-- Whoever waits is held up, through other tasks or not, by one that is next to be
given its lock or waits for tasks that do not wait themselves. -/
theorem waiting_task_held_up (s : LockSys Lock) (h : Running s) (i : ℕ) (hi : s.Waiting i) :
    ∃ j, s.Waiting j ∧ Relation.ReflTransGen s.Waits i j ∧
      ∀ k, s.Waits j k → ¬ s.Waiting k :=
  (noCycle_of_running h).exists_foremost hi

/-- A sandbox is read while the map is; a creation waits for the map, and a second
reader has come after it. -/
def crowded : LockSys Lock where
  tasks := [
    [.run (pick glance), .release .sandboxes .read],
    [.run writeMap, .run skip],
    [.run (lookupHolding glance)]]
  queue := [1, 2]

theorem crowded_running : Running crowded := by
  have hget : Program (lookupHolding glance) := ⟨.sandboxGet, rfl⟩
  have h : Running ⟨[], []⟩ := .init rfl
  -- the first reader is given the map
  replace h := h.step (.spawn hget)
  replace h := h.step (.request (i := 0) rfl (by simp))
  replace h := h.step (.grant (i := 0) rfl (by simp) (by
    rintro j ⟨l, m, m', -, -, ⟨k, hk, hl⟩ | ⟨-, hlt⟩⟩
    · have hk := List.mem_of_getElem? hk
      simp only [List.nil_append, List.mem_singleton] at hk
      simp [hk] at hl
    · simp at hlt))
  -- the creation finds no sandbox of its name, and asks for the map again
  replace h := h.step (.spawn (c := Task.create.code) ⟨.create, rfl⟩)
  replace h := h.step (.advance (i := 1) rfl (.seq _ _ _))
  replace h := h.step (.advance (i := 1) rfl (.leave _ _))
  replace h := h.step (.advance (i := 1) rfl (.seq _ _ _))
  replace h := h.step (.request (i := 1) rfl (by simp))
  -- the second reader asks for it after that
  replace h := h.step (.spawn hget)
  replace h := h.step (.request (i := 2) rfl (by simp))
  exact h

/-- The second reader waits for the creation, which waits for the first reader. -/
theorem tasks_never_wait_in_circle_crowded :
    Running crowded ∧ crowded.Waits 2 1 ∧ crowded.Waits 1 0 ∧
      ¬ Relation.TransGen crowded.Waits 2 2 := by
  refine ⟨crowded_running, ?_, ?_, tasks_never_wait_in_circle crowded crowded_running 2⟩
  · refine ⟨.sandboxes, .read, .write, ⟨by decide, _, _, rfl⟩, Or.inr rfl, Or.inr ?_⟩
    exact ⟨⟨by decide, _, _, rfl⟩, by decide⟩
  · refine ⟨.sandboxes, .write, .read, ⟨by decide, _, _, rfl⟩, Or.inl rfl, Or.inl ?_⟩
    exact ⟨_, rfl, by simp⟩

theorem waiting_task_held_up_crowded :
    ∃ j, crowded.Waiting j ∧ Relation.ReflTransGen crowded.Waits 2 j ∧
      ∀ k, crowded.Waits j k → ¬ crowded.Waiting k :=
  waiting_task_held_up crowded crowded_running 2 ⟨_, _, by decide, _, _, rfl⟩

end Kuasar.LockOrder

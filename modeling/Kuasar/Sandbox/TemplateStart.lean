import Kuasar.Template.Lease
import Kuasar.Sandbox.Metadata

/-!
# Sandbox.TemplateStart — starts from the template pool

The four ways to start a sandbox from a pooled template: by pool key, by template
id, the WarmFork restore both end in, and the service's sandbox-run. Each takes a
lease, passes a row of checks and fallible steps, and has to end the lease on
every way out.

A start is a function of the pool and of the outcome of every fallible step
(`Outcomes`); it returns the pool it leaves and the restore record of the started
sandbox, or why it failed. `Balanced` is what such a call owes to the pool: on
failure nothing has changed, on success only what the record says.
-/

namespace Kuasar.TemplateStart

open TemplatePool

structure Config where
  enableWarmforkRestore : Bool
  defaultMemoryRestoreMode : MemoryRestoreMode

/-- The outcome of every fallible step. `marker` is the consumed marker of the first
acquisition and `laterMarkers` those of the attempts while waiting for a refill, up to
the deadline. `annotations` are the container names parsed from the pod.
`removedOnRollback` and `removed` are the directory removals of the collections that
giving back the pin of a rolled back restore and giving back the lease may trigger. -/
structure Outcomes where
  marker : Bool
  laterMarkers : List Bool
  snapshotFiles : Bool
  annotations : Option (List String)
  sandboxFound : Bool
  created : Bool
  preStart : Bool
  prepareNetwork : Bool
  restore : Bool
  addToCgroup : Bool
  postStart : Bool
  dump : Bool
  removedOnRollback : String → Bool
  removed : String → Bool

inductive StartError where
  | miss
  | sandboxNotFound
  | notCreated
  | noKey
  | kindMismatch
  | keyMismatch
  | notEnabled
  | noReadyProtocol
  | snapshotFilesMissing
  | invalidAnnotations
  | containerSetMismatch
  | preStart
  | prepareNetwork
  | restore
  | addToCgroup
  | postStart
  | dump
  | unreachable
  deriving DecidableEq, Repr

/-- A start returns the pool it leaves and the record of the started sandbox. -/
abbrev Result := TemplatePool × Except StartError RestoreMetadata

section

variable (cfg : Config) (o : Outcomes) (before : RestoreMetadata)

/-! ## The sandboxer -/

/-- The record of a sandbox restored through the sandboxer. -/
def record (p : TemplatePool) (t : PooledTemplate) (leaseMode : TemplateLeaseMode) :
    RestoreMetadata where
  templateId := some t.id
  templateSnapshotType := some t.snapshotType
  leaseMode := some leaseMode
  reflinkSupported := some p.reflinkSupported
  memoryRestoreMode := some cfg.defaultMemoryRestoreMode
  orphanContainerIds :=
    match t.snapshotType with
    | .environment => before.orphanContainerIds
    | _ => t.orphanContainerIds

/-- The extra reference of a restore that leaves its memory on disk. -/
def pinExtra (p : TemplatePool) (pinned : Option String) : TemplatePool :=
  match pinned with
  | some id => p.refTemplate id
  | none => p

/-- `rollback_post_restore`: give the extra pin back. -/
def rollback (p : TemplatePool) (pinned : Option String) : TemplatePool :=
  match pinned with
  | some id => p.derefCall o.removedOnRollback id
  | none => p

/-- `start_from_snapshot`. -/
def startFromSnapshot (p : TemplatePool) (t : PooledTemplate) (leaseMode : TemplateLeaseMode) :
    Result :=
  if !o.sandboxFound then (p, .error .sandboxNotFound)
  else if !o.preStart then (p, .error .preStart)
  else if !o.prepareNetwork then (p, .error .prepareNetwork)
  else if !o.restore then (p, .error .restore)
  else
    let r := record cfg before p t leaseMode
    let pinned := pinExtra p r.envNonCopyPinned
    if !o.addToCgroup then (rollback o pinned r.envNonCopyPinned, .error .addToCgroup)
    else if !o.postStart then (rollback o pinned r.envNonCopyPinned, .error .postStart)
    else if !o.dump then (rollback o pinned r.envNonCopyPinned, .error .dump)
    else (pinned, .ok r)

/-- The end of a start that holds a lease on `t`. -/
def endLease (t : PooledTemplate) : Result → Result
  | (p, .ok r) => (p.leaseComplete o.removed t, .ok r)
  | (p, .error e) => (p.leaseFail o.removed t, .error e)

def sameNames (xs ys : List String) : Bool :=
  xs.all (fun x => ys.contains x) && ys.all (fun y => xs.contains y)

/-- `restore_from_warm_fork_template`. -/
def restoreFromWarmForkTemplate (p : TemplatePool) (t : PooledTemplate)
    (leaseMode : TemplateLeaseMode) : Result :=
  if t.readyProtocolVersion.isNone then (p.leaseFail o.removed t, .error .noReadyProtocol)
  else if !o.snapshotFiles then (p.leaseFail o.removed t, .error .snapshotFilesMissing)
  else
    match o.annotations with
    | none => (p.leaseFail o.removed t, .error .invalidAnnotations)
    | some names =>
      if !t.warmForkTargets.isEmpty && !sameNames (t.warmForkTargets.map (·.containerName)) names
      then (p.leaseFail o.removed t, .error .containerSetMismatch)
      else endLease o t (startFromSnapshot cfg o before p t leaseMode)

/-- `acquire_for_restore`. -/
def acquireForRestoreCall (p : TemplatePool) (key : TemplateKey) (marker : Bool) :
    TemplatePool × Option PooledTemplate :=
  match p.acquireForRestore key with
  | none => (p, none)
  | some op => p.acquireWith op marker

/-- `wait_and_acquire_for_restore`: try again at every wake-up, until the deadline or
until no refill of the key is in flight. -/
def waitAndAcquireForRestore (key : TemplateKey) :
    List Bool → TemplatePool → TemplatePool × Option PooledTemplate
  | [], p => (p, none)
  | marker :: markers, p =>
    match acquireForRestoreCall p key marker with
    | (p', some t) => (p', some t)
    | (p', none) =>
      if p'.inFlightRefills.count key = 0 then (p', none)
      else waitAndAcquireForRestore key markers p'

/-- The acquisition of `start_with_template_key`. -/
def acquireOrWait (p : TemplatePool) (key : TemplateKey) : TemplatePool × Option PooledTemplate :=
  match acquireForRestoreCall p key o.marker with
  | (p', some t) => (p', some t)
  | (p', none) =>
    if 0 < p'.inFlightRefills.count key then waitAndAcquireForRestore key o.laterMarkers p'
    else (p', none)

/-- `start_with_template_key`. -/
def startWithTemplateKey (p : TemplatePool) (key : TemplateKey) : Result :=
  match acquireOrWait o p key with
  | (p', none) => (p', .error .miss)
  | (p', some t) =>
    match t.snapshotType with
    | .environment =>
      if !o.snapshotFiles then (p'.leaseFail o.removed t, .error .snapshotFilesMissing)
      else endLease o t (startFromSnapshot cfg o before p' t .shared)
    | .warmFork =>
      if !cfg.enableWarmforkRestore then (p'.leaseFail o.removed t, .error .notEnabled)
      else restoreFromWarmForkTemplate cfg o before p' t p.leaseMode
    | .continuation => (p', .error .unreachable)

/-- `acquire_by_id_for_restore`. -/
def acquireByIdForRestoreCall (p : TemplatePool) (id : String) (marker : Bool) :
    TemplatePool × Option PooledTemplate :=
  match p.acquireByIdForRestore id with
  | none => (p, none)
  | some op => p.acquireWith op marker

/-- The key asked for, if any, is the template's own. -/
def keyMatches (t : PooledTemplate) : Option String → Bool
  | none => true
  | some k => t.key.key == k

/-- `start_with_template_id`. -/
def startWithTemplateId (p : TemplatePool) (templateId : String) (key : Option String) : Result :=
  match acquireByIdForRestoreCall p templateId o.marker with
  | (p', none) => (p', .error .miss)
  | (p', some t) =>
    -- the source returns here before it wraps the template in a lease
    if t.snapshotType ≠ .warmFork then (p', .error .kindMismatch)
    else if !keyMatches t key then (p'.leaseFail o.removed t, .error .keyMismatch)
    else if !cfg.enableWarmforkRestore then (p'.leaseFail o.removed t, .error .notEnabled)
    else restoreFromWarmForkTemplate cfg o before p' t p.leaseMode

/-! ## The service -/

/-- The record of a sandbox restored through the service, which does not set the
memory restore mode. -/
def serviceRecord (p : TemplatePool) (t : PooledTemplate) : RestoreMetadata where
  templateId := some t.id
  templateSnapshotType := some .warmFork
  leaseMode := some p.leaseMode
  reflinkSupported := some p.reflinkSupported
  memoryRestoreMode := before.memoryRestoreMode
  orphanContainerIds := t.orphanContainerIds

/-- `restore_sandbox_warm_fork` with its lease. -/
def serviceRestore (p : TemplatePool) (t : PooledTemplate) : Result :=
  if !o.prepareNetwork then (p.leaseFail o.removed t, .error .prepareNetwork)
  else if !o.restore then (p.leaseFail o.removed t, .error .restore)
  else if !o.addToCgroup then (p.leaseFail o.removed t, .error .addToCgroup)
  else if !o.dump then (p.leaseFail o.removed t, .error .dump)
  else (p.leaseComplete o.removed t, .ok (serviceRecord before p t))

/-- `restore_sandbox_warm_fork`. -/
def restoreSandboxWarmFork (p : TemplatePool) (key templateId : Option String) : Result :=
  if !o.sandboxFound then (p, .error .sandboxNotFound)
  else if !o.created then (p, .error .notCreated)
  else
    match templateId, key with
    | some tid, key =>
      match acquireByIdForRestoreCall p tid o.marker with
      | (p', none) => (p', .error .miss)
      | (p', some t) =>
        if t.snapshotType ≠ .warmFork then (p', .error .kindMismatch)
        else if !keyMatches t key then (p'.leaseFail o.removed t, .error .keyMismatch)
        else serviceRestore o before p' t
    | none, some k =>
      match acquireForRestoreCall p ⟨k⟩ o.marker with
      | (p', none) => (p', .error .miss)
      | (p', some t) =>
        if t.snapshotType ≠ .warmFork then (p', .error .kindMismatch)
        else serviceRestore o before p' t
    | none, none => (p, .error .noKey)

inductive StartCall where
  | templateKey (key : TemplateKey)
  | templateId (templateId : String) (key : Option String)
  | serviceRun (key templateId : Option String)

def start (p : TemplatePool) : StartCall → Result
  | .templateKey key => startWithTemplateKey cfg o before p key
  | .templateId tid key => startWithTemplateId cfg o before p tid key
  | .serviceRun key tid => restoreSandboxWarmFork o before p key tid

end

/-! ## What a start owes to the pool -/

/-- The pool with the one reference or consumption that the record names. -/
def withRecorded (p : TemplatePool) (r : RestoreMetadata) : TemplatePool :=
  match r.reference, r.consumption with
  | some id, _ => p.refTemplate id
  | none, some id => p.dequeue id
  | none, none => p

/-- A start that failed left every counter and queue as it was; one that succeeded
changed what its record names. -/
def Balanced (p : TemplatePool) : Result → Prop
  | (p', .error _) => Same p p'
  | (p', .ok r) => Same (withRecorded p r) p'

/-! ## When it is met -/

namespace StartCall

/-- The template the start finds in the pool. -/
def found (p : TemplatePool) : StartCall → Option PooledTemplate
  | .templateKey key => p.latest key
  | .templateId tid _ => p.findById tid
  | .serviceRun _ (some tid) => p.findById tid
  | .serviceRun (some k) none => p.latest ⟨k⟩
  | .serviceRun none none => none

def byId : StartCall → Bool
  | .templateKey _ => false
  | .templateId _ _ => true
  | .serviceRun _ tid => tid.isSome

/-- The start accepts WarmFork templates only. -/
def warmForkOnly : StartCall → Bool
  | .templateKey _ => false
  | _ => true

/-- The service looks at the sandbox before it goes to the pool. -/
def admitted (o : Outcomes) : StartCall → Bool
  | .serviceRun _ _ => o.sandboxFound && o.created
  | _ => true

def keyOk (t : PooledTemplate) : StartCall → Bool
  | .templateKey _ => true
  | .templateId _ key => keyMatches t key
  | .serviceRun key (some _) => keyMatches t key
  | .serviceRun _ none => true

end StartCall

namespace Outcomes

variable (o : Outcomes)

def vmUp : Bool := o.sandboxFound && o.preStart && o.prepareNetwork && o.restore

/-- Every step after it succeeds. -/
def settled : Bool := o.addToCgroup && o.postStart && o.dump

end Outcomes

/-- Every check and step of a WarmFork restore through the sandboxer succeeds. -/
def warmForkCompletes (cfg : Config) (o : Outcomes) (t : PooledTemplate) : Bool :=
  cfg.enableWarmforkRestore && t.readyProtocolVersion.isSome && o.snapshotFiles &&
    (match o.annotations with
      | none => false
      | some names =>
        t.warmForkTargets.isEmpty || sameNames (t.warmForkTargets.map (·.containerName)) names) &&
    o.vmUp && o.settled

/-- Every check and step of a WarmFork restore through the service succeeds. -/
def serviceCompletes (o : Outcomes) : Bool :=
  o.prepareNetwork && o.restore && o.addToCgroup && o.dump

/-- Every check and step after the acquisition of a WarmFork template succeeds. -/
def StartCall.completes (cfg : Config) (o : Outcomes) (t : PooledTemplate) (c : StartCall) : Bool :=
  c.keyOk t &&
    match c with
    | .serviceRun _ _ => serviceCompletes o
    | _ => warmForkCompletes cfg o t

/-- The collections an Environment start may trigger have nothing to remove: the one
when the extra pin of a restore that is rolled back is the last one, and the one when
the restore pin is the last one. -/
def EnvironmentQuiet (cfg : Config) (o : Outcomes) (p : TemplatePool) (t : PooledTemplate) : Prop :=
  (o.snapshotFiles = true → o.vmUp = true → o.settled = false →
    cfg.defaultMemoryRestoreMode ≠ .copy → p.inUseCount.entry t.id = none →
    ¬ (p.pin t.id).Collects o.removedOnRollback) ∧
  (p.inFlightRestores.entry t.id = none →
    ¬ Collects o.removed
      (if o.snapshotFiles && o.vmUp && o.settled &&
          decide (cfg.defaultMemoryRestoreMode ≠ .copy) then p.refTemplate t.id else p))

/-- The condition: a start that accepts WarmFork templates only does not find an
Environment template; the collections it triggers have nothing to remove; and an
exclusive template that a failing start asked for by id is the latest of its key. -/
def Clean (cfg : Config) (o : Outcomes) (p : TemplatePool) (c : StartCall) : Prop :=
  c.admitted o = true → ∀ t, c.found p = some t →
    (t.snapshotType = .environment → c.warmForkOnly = false ∧ EnvironmentQuiet cfg o p t) ∧
    (t.snapshotType = .warmFork → p.leaseMode = .shared → c.completes cfg o t = false →
      p.inUseCount.entry t.id = none → ¬ p.Collects o.removed) ∧
    (t.snapshotType = .warmFork → p.leaseMode = .exclusive → c.byId = true →
      (o.marker && c.completes cfg o t) = false → p.latest t.key = some t)

end Kuasar.TemplateStart

import Mathlib.Data.List.Sort

/-!
# Template.Types — what a snapshot template records

The vocabulary of the template store: what a snapshot captured, how a restore
may share it, and the metadata a pooled template carries from the sandbox it was
taken of to the sandboxes restored from it. Of the metadata the records below
keep what the modelled functions read or copy.
-/

namespace Kuasar

/-- What a snapshot captured. An `environment` has no containers and is shared;
a `warmFork` has a process that waits for its task; a `continuation` has the full
process state and its network identity and is consumed by its one restore. -/
inductive SnapshotType where
  | environment
  | warmFork
  | continuation
  deriving DecidableEq, Repr

/-- How the pool lends a WarmFork template to restores. -/
inductive TemplateLeaseMode where
  | shared
  | exclusive
  deriving DecidableEq, Repr

inductive MemoryRestoreMode where
  | copy
  | onDemand
  | fileBackend
  | externalUffd
  deriving DecidableEq, Repr

/-- A class of templates that can be restored interchangeably. -/
structure TemplateKey where
  key : String
  deriving DecidableEq, Repr

/-- One running workload instance, the unit a continuation may be restored for. -/
structure WorkloadIdentity where
  podUid : String
  generation : Nat
  deriving DecidableEq, Repr

/-- A disk image inside a snapshot; `filename` is relative to the snapshot's
directory. -/
structure DiskImageEntry where
  storageId : String
  deviceId : String
  filename : String
  deriving DecidableEq, Repr

/-- A storage of a sandbox, as far as a restore rewrites it. -/
structure Storage where
  id : String
  deviceId : Option String
  cleanupPath : Option String
  ownedByRuntime : Bool
  deriving DecidableEq, Repr

/-- A container whose waiting process a WarmFork restore hands its task to. -/
structure WarmForkTarget where
  containerName : String
  containerId : String
  socketPath : String
  deriving DecidableEq, Repr

/-- A snapshot ready to be restored into a sandbox. -/
structure PooledTemplate where
  id : String
  key : TemplateKey
  snapshotType : SnapshotType
  createdAtSecs : Nat := 0
  snapshotDir : String := ""
  idGenerator : Nat := 0
  diskImages : List DiskImageEntry := []
  storages : List Storage := []
  orphanContainerIds : List String := []
  readyProtocolVersion : Option String := none
  workloadIdentity : Option WorkloadIdentity := none
  warmForkTargets : List WarmForkTarget := []
  deriving DecidableEq, Repr

/-- Oldest first, templates of one second in the order they were listed. -/
def sortByCreation (ts : List PooledTemplate) : List PooledTemplate :=
  ts.insertionSort fun t u => t.createdAtSecs ≤ u.createdAtSecs

theorem mem_of_mem_take_sortByCreation {ts : List PooledTemplate} {n : ℕ} {t : PooledTemplate}
    (h : t ∈ (sortByCreation ts).take n) : t ∈ ts :=
  (List.perm_insertionSort _ ts).mem_iff.mp (List.mem_of_mem_take h)

end Kuasar

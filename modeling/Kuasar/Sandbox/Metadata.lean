import Kuasar.Template.Types

/-!
# Sandbox.Metadata — what a sandbox records about its template

A restored sandbox records the template it came from, and this record is all that
is known about the reference it holds on the pool: recovery rebuilds the counts
from it, and deletion decides from it what to give back. The four places that
read the record were written separately; here each is a definition of its own.
-/

namespace Kuasar

/-- Restore metadata: empty for sandboxes that were booted cold, written at
restore time, dumped with the sandbox. -/
structure RestoreMetadata where
  templateId : Option String := none
  templateSnapshotType : Option SnapshotType := none
  leaseMode : Option TemplateLeaseMode := none
  reflinkSupported : Option Bool := none
  memoryRestoreMode : Option MemoryRestoreMode := none
  orphanContainerIds : List String := []
  deriving DecidableEq, Repr

namespace RestoreMetadata

/-- Guest memory was not copied: the snapshot files back the running VM. -/
def nonCopy (r : RestoreMetadata) : Bool :=
  match r.memoryRestoreMode with
  | some .copy => false
  | none => false
  | some _ => true

/-- `start_from_snapshot` takes an extra reference on the template of an
Environment restore that left its memory on disk. -/
def envNonCopyPinned (r : RestoreMetadata) : Option String :=
  match r.templateId with
  | none => none
  | some tid =>
    if r.templateSnapshotType = some .environment ∧ r.nonCopy = true then some tid else none

/-- `recover`: the template whose reference a WarmFork sandbox kept from its
lease. -/
def sharedContainerId (r : RestoreMetadata) : Option String :=
  match r.templateId with
  | none => none
  | some tid =>
    if r.templateSnapshotType = some .warmFork ∧ r.leaseMode = some .shared then some tid else none

/-- `recover`: the template an Environment sandbox pins. The source asks this only
when the record does not name a shared WarmFork lease. -/
def envNonCopyPinnedId (r : RestoreMetadata) : Option String :=
  match r.templateId with
  | none => none
  | some tid =>
    if r.templateSnapshotType = some .warmFork ∧ r.leaseMode = some .shared then none
    else if r.templateSnapshotType = some .environment ∧ r.nonCopy = true then some tid
    else none

/-- What a sandbox gives back at the end of its life. -/
inductive Disposal where
  | keep
  | deref (id : String)
  | cleanupConsumed (id : String)
  | deleteContinuation (id : String)
  deriving DecidableEq, Repr

/-- What to give back, with `continuation` for the snapshots the pool does not
keep. -/
def disposal (continuation : String → Disposal) (r : RestoreMetadata) : Disposal :=
  match r.templateId with
  | none => .keep
  | some tid =>
    match r.templateSnapshotType with
    | some .environment => if r.nonCopy then .deref tid else .keep
    | some .warmFork =>
      match r.leaseMode with
      | some .exclusive => .cleanupConsumed tid
      | some .shared => .deref tid
      | none => .cleanupConsumed tid
    | some .continuation => continuation tid
    | none => .cleanupConsumed tid

/-- `delete`. -/
def onDelete : RestoreMetadata → Disposal := disposal .deleteContinuation

/-- The service's `destroy_sandbox`. It has no hold of the continuation store. -/
def onDestroy : RestoreMetadata → Disposal := disposal fun _ => .keep

/-- The template on which the record says a reference is held. -/
def reference (r : RestoreMetadata) : Option String :=
  match r.templateId, r.templateSnapshotType with
  | some tid, some .environment => if r.nonCopy then some tid else none
  | some tid, some .warmFork => if r.leaseMode = some .shared then some tid else none
  | _, _ => none

/-- The template that the record says was taken out of the pool for good. -/
def consumption (r : RestoreMetadata) : Option String :=
  match r.templateId, r.templateSnapshotType with
  | some tid, some .warmFork => if r.leaseMode = some .shared then none else some tid
  | _, _ => none

end RestoreMetadata

end Kuasar

import Kuasar.Tla.Objects
import Kuasar.Template.Pool
import Kuasar.Sandbox.Metadata

/-!
# Sandbox.References — starts, deletes and destroys of the same sandboxes

How sandboxes take and give back references on templates: `start_from_snapshot`
with the lease around it, `delete`, the service's `destroy_sandbox`, the dumps of
the sandbox to disk, and a restart that recovers the dumped sandboxes and rebuilds
the reference counts. Any number of calls run at once; a sandbox is locked where
the source holds its mutex.

A delete decides what to give back from the sandbox's record, and the record stays
as it is: a second delete that already found the sandbox reads it again. A start
writes the record without looking at it, and the record is all that remembers an
earlier reference. The effects `starts` and `ends` mark the two moments.
-/

namespace Kuasar.References

/-- How far the life of a sandbox is, as the calls on it see it: at rest; while a
start that wrote its record runs; while a delete or destroy that read its record runs;
after that call gave back the reference. -/
inductive Stage where
  | settled
  | starting
  | ending
  | ended
  deriving DecidableEq, Repr

/-- A sandbox object. `dir` is its base directory and `dumped` the record in a readable
`sandbox.json`. Kept for the proof: `stage`, the references `held` by the sandbox, and
every reference ever `taken` and `dropped` for it. -/
structure Sandbox where
  registered : Bool
  locked : Bool
  record : RestoreMetadata
  dir : Bool
  dumped : Option RestoreMetadata
  stage : Stage
  held : List String
  taken : List String
  dropped : List String

/-- The progress of a call. A start carries the record it writes; a delete (up to
`gave`) and a destroy (from `destroying` on) carry what they decided to give back. -/
inductive Call where
  | leased (r : RestoreMetadata)
  | starting (r : RestoreMetadata)
  | recorded (r : RestoreMetadata)
  | pinned (r : RestoreMetadata)
  | failing (r : RestoreMetadata)
  | deleting (d : RestoreMetadata.Disposal)
  | emptied (d : RestoreMetadata.Disposal)
  | gave
  | destroying (d : RestoreMetadata.Disposal)
  | stopped (d : RestoreMetadata.Disposal)
  | cleared (d : RestoreMetadata.Disposal)
  | removing

/-- What a move does that other calls on the sandbox must not collide with: write the
record for a start, or read it to end the sandbox. -/
inductive Effect where
  | quiet
  | starts
  | ends
  deriving DecidableEq, Repr

/-- The references a disposal gives back. -/
def derefs : RestoreMetadata.Disposal → List String
  | .deref id => [id]
  | _ => []

/-- Count references up. -/
def takeRefs (u : Tally String) (refs : List String) : Tally String := refs.foldl Tally.incr u

/-- Count references down. -/
def dropRefs (u : Tally String) (refs : List String) : Tally String := refs.foldl Tally.decr u

/-- The reference the lease of a start holds: the one of a shared WarmFork lease. -/
def leaseRefs (r : RestoreMetadata) : List String := r.sharedContainerId.toList

/-- The reference a start takes once the VM runs. -/
def pinRefs (r : RestoreMetadata) : List String := r.envNonCopyPinned.toList

/-- `dump`: without a base directory nothing is written. -/
def Sandbox.dump (sb : Sandbox) : Sandbox :=
  if sb.dir then { sb with dumped := some sb.record } else sb

/-- A dump or a directory removal that failed: the file may be gone. -/
def Sandbox.maybeLost (sb : Sandbox) (lost : Bool) : Sandbox :=
  if lost then { sb with dumped := none } else sb

/-- One move of a call on a sandbox; `u` is `in_use_count`. -/
inductive Move : Effect → Tally String → Sandbox → Option Call →
    Tally String → Sandbox → Option Call → Prop where
  -- a start takes its lease and calls start_from_snapshot, which finds the sandbox or not
  | lease {u sb} (r : RestoreMetadata) :
      Move .quiet u sb none (takeRefs u (leaseRefs r))
        { sb with taken := leaseRefs r ++ sb.taken } (some (.leased r))
  | lookupFail {u sb r} : Move .quiet u sb (some (.leased r)) u sb (some (.failing r))
  | lockStart {u sb r} (h : sb.locked = false) :
      Move .quiet u sb (some (.leased r)) u { sb with locked := true } (some (.starting r))
  -- pre_start or prepare_network fails
  | preFail {u sb r} :
      Move .quiet u sb (some (.starting r)) u { sb with locked := false } (some (.failing r))
  | record {u sb r} :
      Move .starts u sb (some (.starting r)) u { sb with record := r, stage := .starting }
        (some (.recorded r))
  -- the restore fails: clear_template_restore_state
  | restoreFail {u sb r} :
      Move .quiet u sb (some (.recorded r)) u
        { sb with record := {}, locked := false, stage := .settled } (some (.failing r))
  -- the VM runs: the extra reference of an Environment that keeps its memory on disk
  | restored {u sb r} :
      Move .quiet u sb (some (.recorded r)) (takeRefs u (pinRefs r))
        { sb with taken := pinRefs r ++ sb.taken, dir := true } (some (.pinned r))
  -- rollback_post_restore
  | postFail {u sb r} (lost : Bool) :
      Move .quiet u sb (some (.pinned r)) (dropRefs u (pinRefs r))
        { sb.maybeLost lost with
          dropped := pinRefs r ++ sb.dropped, record := {}, locked := false, stage := .settled }
        (some (.failing r))
  -- the dump is the last step: from here on the references are the sandbox's
  | finish {u sb r} :
      Move .quiet u sb (some (.pinned r)) u
        { sb.dump with
          locked := false, stage := .settled, held := leaseRefs r ++ pinRefs r ++ sb.held } none
  -- TemplateLease::fail
  | leaseFail {u sb r} :
      Move .quiet u sb (some (.failing r)) (dropRefs u (leaseRefs r))
        { sb with dropped := leaseRefs r ++ sb.dropped } none
  -- a cold boot writes the pool's settings into the record
  | coldStart {u sb} (mode : TemplateLeaseMode) (reflink : Bool) (h : sb.locked = false) :
      Move .starts u sb none u
        { sb with record := { sb.record with
            leaseMode := some mode, reflinkSupported := some reflink } } none
  -- a continuation restore publishes its template id before it starts, or takes it back
  | publish {u sb} (tid : String) (h : sb.locked = false) :
      Move .starts u sb none u
        { sb with record := { sb.record with templateId := some tid } } none
  | unpublish {u sb} (h : sb.locked = false) :
      Move .starts u sb none u { sb with record := {} } none
  -- stop, update, the containers and the monitor dump the sandbox
  | dump {u sb} (h : sb.locked = false) : Move .quiet u sb none u sb.dump none
  | dumpFail {u sb} (h : sb.locked = false) (lost : Bool) :
      Move .quiet u sb none u (sb.maybeLost lost) none
  -- delete: the lock is held until the reference is given back
  | lockDelete {u sb} (h : sb.locked = false) :
      Move .ends u sb none u { sb with locked := true, stage := .ending }
        (some (.deleting sb.record.onDelete))
  | deleteFail {u sb d} (lost : Bool) :
      Move .quiet u sb (some (.deleting d)) u
        { sb.maybeLost lost with locked := false, stage := .settled } none
  | deleteDir {u sb d} :
      Move .quiet u sb (some (.deleting d)) u { sb with dir := false, dumped := none }
        (some (.emptied d))
  | deleteGive {u sb d} :
      Move .quiet u sb (some (.emptied d)) (dropRefs u (derefs d))
        { sb with
          dropped := derefs d ++ sb.dropped, held := sb.held.diff (derefs d), stage := .ended }
        (some .gave)
  | deleteUnlock {u sb} :
      Move .quiet u sb (some .gave) u { sb with locked := false } (some .removing)
  -- destroy_sandbox: the lock is held while the VM stops
  | lockDestroy {u sb} (h : sb.locked = false) :
      Move .ends u sb none u { sb with locked := true, stage := .ending }
        (some (.destroying sb.record.onDestroy))
  | destroyFail {u sb d} :
      Move .quiet u sb (some (.destroying d)) u
        { sb with locked := false, stage := .settled } none
  | destroyUnlock {u sb d} :
      Move .quiet u sb (some (.destroying d)) u { sb with locked := false } (some (.stopped d))
  | cleanupFail {u sb d} (lost : Bool) :
      Move .quiet u sb (some (.stopped d)) u { sb.maybeLost lost with stage := .settled } none
  | destroyDir {u sb d} :
      Move .quiet u sb (some (.stopped d)) u { sb with dir := false, dumped := none }
        (some (.cleared d))
  | destroyGive {u sb d} :
      Move .quiet u sb (some (.cleared d)) (dropRefs u (derefs d))
        { sb with
          dropped := derefs d ++ sb.dropped, held := sb.held.diff (derefs d), stage := .ended }
        (some .removing)
  -- the sandbox leaves the map
  | remove {u sb} : Move .quiet u sb (some .removing) u { sb with registered := false } none

/-! ## The system -/

open Tla RestoreMetadata

/-- `in_use_count`, the sandboxes, and the calls. -/
abbrev St := World (Tally String) Sandbox Call

/-- The references recovery rebuilds for a sandbox with this record. -/
def rebuiltRefs (r : RestoreMetadata) : List String :=
  r.sharedContainerId.toList ++ r.envNonCopyPinnedId.toList

def recover (r : RestoreMetadata) : Sandbox where
  registered := true
  locked := false
  record := r
  dir := true
  dumped := some r
  stage := .settled
  held := rebuiltRefs r
  taken := rebuiltRefs r
  dropped := []

/-- The records of the sandboxes that recover. -/
def dumps (survivors : List Sandbox) : List RestoreMetadata := survivors.filterMap (·.dumped)

/-- `rebuild_active_refs` on what `recover` collects from the sandboxes. -/
def rebuildActiveRefs (rs : List RestoreMetadata) : Tally String :=
  takeRefs .empty (rs.filterMap (·.sharedContainerId) ++ rs.filterMap (·.envNonCopyPinnedId))

/-- The process dies and comes back: of the sandboxes with a readable dump, `survivors`
recover; every call is gone. -/
def Restart (survivors : List Sandbox) (n : ℕ) : Action St := fun s s' =>
  survivors.Sublist s.objects ∧ (∀ sb ∈ survivors, sb.dumped ≠ none) ∧
    s' = ⟨rebuildActiveRefs (dumps survivors), (dumps survivors).map recover, List.replicate n none⟩

/-- Task `k` makes a move on sandbox `i`, or the process restarts. -/
inductive Label where
  | task (k i : ℕ) (e : Effect)
  | restart (survivors : List Sandbox) (n : ℕ)

/-- The steps. -/
def next : Label → Action St
  | .task k i e => ObjectStep Move k i e
  | .restart survivors n => Restart survivors n

/-- The references a call still answers for: those of its lease until the start is
done, and the extra one once it is taken. -/
def Call.outstanding : Call → List String
  | .leased r => leaseRefs r
  | .starting r => leaseRefs r
  | .recorded r => leaseRefs r
  | .pinned r => leaseRefs r ++ pinRefs r
  | .failing r => leaseRefs r
  | _ => []

/-- The references on `T` that are outstanding with some call. -/
def outstanding (s : St) (T : String) : ℕ :=
  (s.tasks.map (taskWeight fun c => c.outstanding.count T)).sum

/-- A sandbox at rest that holds what its record says. -/
def Sandbox.fresh (sb : Sandbox) : Prop :=
  sb.registered = true ∧ sb.locked = false ∧ sb.stage = .settled ∧
    sb.held = sb.record.reference.toList ∧ sb.taken = sb.held ∧ sb.dropped = [] ∧
    ∀ r, sb.dumped = some r → r.reference = sb.record.reference

/-- Any sandboxes at rest, counted, and any number of tasks. -/
def Init : StatePred St := fun s =>
  (∀ sb ∈ s.objects, sb.fresh) ∧ (∀ l ∈ s.tasks, l = none) ∧
    ∀ T, s.shared.count T = (s.objects.map fun sb => sb.held.count T).sum

/-- A start writes the record of a sandbox that was not restored from a template, and a
delete or destroy reads the record of a sandbox, only while the sandbox is registered and
no other delete or destroy that read its record is still going on. -/
def Calm : Label → StatePred St
  | .task _ i .starts, s => ∀ sb, s.objects[i]? = some sb →
      sb.record.templateSnapshotType = none ∧ sb.stage = .settled
  | .task _ i .ends, s => ∀ sb, s.objects[i]? = some sb → sb.stage = .settled
  | _, _ => True

/-! ## The record is read the same way everywhere -/

def recordRefs (r : RestoreMetadata) : List String := r.reference.toList

theorem recordRefs_of_none {r : RestoreMetadata} (h : r.templateSnapshotType = none) :
    recordRefs r = [] := by
  unfold recordRefs reference
  rw [h]
  cases r.templateId <;> rfl

/-- What a start takes, over its lease and its extra pin, is what the record says. -/
theorem leaseRefs_append_pinRefs (r : RestoreMetadata) :
    leaseRefs r ++ pinRefs r = recordRefs r := by
  obtain ⟨tid, kind, mode, reflink, memory, orphans⟩ := r
  rcases tid with _ | tid
  · rfl
  rcases kind with _ | _ | _ | _ <;> rcases mode with _ | _ | _ <;>
    rcases memory with _ | _ | _ | _ | _ <;> rfl

theorem rebuiltRefs_eq (r : RestoreMetadata) : rebuiltRefs r = recordRefs r := by
  obtain ⟨tid, kind, mode, reflink, memory, orphans⟩ := r
  rcases tid with _ | tid
  · rfl
  rcases kind with _ | _ | _ | _ <;> rcases mode with _ | _ | _ <;>
    rcases memory with _ | _ | _ | _ | _ <;> rfl

/-- So is what a delete or a destroy gives back. -/
theorem derefs_disposal (continuation : String → Disposal)
    (hc : ∀ tid, derefs (continuation tid) = []) (r : RestoreMetadata) :
    derefs (r.disposal continuation) = recordRefs r := by
  obtain ⟨tid, kind, mode, reflink, memory, orphans⟩ := r
  rcases tid with _ | tid
  · rfl
  rcases kind with _ | _ | _ | _
  · rcases mode with _ | _ | _ <;> rfl
  · rcases memory with _ | _ | _ | _ | _ <;> rfl
  · rcases mode with _ | _ | _ <;> rfl
  · exact hc tid

theorem derefs_onDelete (r : RestoreMetadata) : derefs r.onDelete = recordRefs r :=
  derefs_disposal _ (fun _ => rfl) r

theorem derefs_onDestroy (r : RestoreMetadata) : derefs r.onDestroy = recordRefs r :=
  derefs_disposal _ (fun _ => rfl) r

theorem count_cons_eq (a T : String) (refs : List String) :
    (a :: refs).count T = refs.count T + if T = a then 1 else 0 := by
  rw [List.count_cons]
  simp only [beq_iff_eq, @eq_comm _ a]

theorem count_takeRefs (u : Tally String) (refs : List String) (T : String) :
    (takeRefs u refs).count T = u.count T + refs.count T := by
  unfold takeRefs
  induction refs generalizing u with
  | nil => rfl
  | cons a refs ih =>
    rw [List.foldl_cons, ih, Tally.count_incr, count_cons_eq]
    split <;> omega

theorem count_dropRefs (u : Tally String) (refs : List String) (T : String) :
    (dropRefs u refs).count T = u.count T - refs.count T := by
  unfold dropRefs
  induction refs generalizing u with
  | nil => rfl
  | cons a refs ih =>
    rw [List.foldl_cons, ih, Tally.count_decr, count_cons_eq]
    split <;> omega

end Kuasar.References

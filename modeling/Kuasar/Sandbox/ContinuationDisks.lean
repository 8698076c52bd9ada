import Kuasar.Sandbox.Restore

/-!
# Sandbox.ContinuationDisks — the disk images of a continuation whose restore fails

A continuation is restored by moving its disk images into the sandbox's directory. If
the restore fails, the consumed marker is removed and the entry can be acquired again,
from the sandboxer's `start` as from the service's `run`. The images are moved back by
`Snapshottable::restore`, for the failures it sees itself.

`reopened_entry_complete_iff`: an entry that can be acquired again has all its images at
their paths if and only if it has none to move, or the restore did not come as far as a
running VM. No later failure moves an image back (`reopened_without_disk`).
-/

namespace Kuasar.Restore

open Files

/-! ## The two restores from a lease -/

/-- The outcomes of the steps around a restore from a continuation: whether the sandbox is
in the map when the template's id is published and when it is cleared again, whether the
files of the snapshot are there, and whether the consumed marker can be removed. -/
structure ContinuationOutcomes extends Outcomes where
  published : Bool
  cleared : Bool
  snapshotFiles : Bool
  removeMarker : Bool

/-- What the two callers read of the configuration, and of the sandbox's cgroup. -/
structure ContinuationConfig where
  reflinkSupported : Bool
  memoryRestoreMode : MemoryRestoreMode
  cgroupParentPath : String
  deriving DecidableEq, Repr

/-- Where a restore from a continuation can fail once it has the lease. -/
inductive ContinuationFailure where
  | snapshotFiles
  | restore (step : RestoreStep)
  deriving DecidableEq, Repr

/-- What a call leaves: the sandbox and the files, the consumed marker of the entry, and
the step that failed. -/
structure ContinuationResult where
  machine : Machine
  marker : Bool
  failure : Option ContinuationFailure

section

variable (cfg : ContinuationConfig) (o : ContinuationOutcomes) (t : PooledTemplate)

def continuationParams : SnapshotRestoreParams where
  snapshotDir := t.snapshotDir
  templateId := some t.id
  snapshotType := .continuation
  idGenerator := t.idGenerator
  diskImages := t.diskImages
  storages := t.storages
  orphanContainerIds := t.orphanContainerIds
  leaseMode := .exclusive
  reflinkSupported := cfg.reflinkSupported
  memoryRestoreMode := cfg.memoryRestoreMode
  warmForkTargets := none

/-- `ContinuationLease::fail`: the marker that is left. -/
def leaseFail : Bool :=
  match t.workloadIdentity with
  | none => true
  | some _ => !o.removeMarker

/-- A failed restore gives the lease back. -/
def giveUp (m : Machine) (failure : ContinuationFailure) : ContinuationResult :=
  ⟨m, leaseFail o t, some failure⟩

/-- The template's id is published to the sandbox before the restore begins. -/
def publishTemplateId (m : Machine) : Machine :=
  if o.published then { m with sandbox.restore.templateId := some t.id } else m

def clearPublished (m : Machine) : Machine :=
  if o.cleared then { m with sandbox := m.sandbox.clearTemplateRestoreState } else m

/-- `start_with_continuation_snapshot`, from the lease on. -/
def startWithContinuationSnapshot (m : Machine) : ContinuationResult :=
  let m := publishTemplateId o t m
  if !o.snapshotFiles then giveUp o t (clearPublished o m) .snapshotFiles
  else
    match startFromSnapshot o.toOutcomes (continuationParams cfg t) m with
    | (m, some step) => giveUp o t m (.restore step)
    | (m, none) => ⟨m, true, none⟩

/-- The record that `restore_sandbox_continuation` writes; it leaves the memory mode. -/
def continuationRecord (restore : RestoreMetadata) : RestoreMetadata :=
  { restore with
    templateId := some t.id
    templateSnapshotType := some .continuation
    leaseMode := some .exclusive
    reflinkSupported := some cfg.reflinkSupported }

/-- The rollback of `restore_sandbox_continuation` once the VM runs. -/
def rollbackContinuation (m : Machine) : Machine :=
  { m with sandbox := (m.sandbox.clearTemplateRestoreState.stop o.toOutcomes).1 }

/-- `restore_sandbox_continuation`, from the lease on. -/
def restoreSandboxContinuation (m : Machine) : ContinuationResult :=
  let m := { m with sandbox := { m.sandbox with
    restore := continuationRecord cfg t m.sandbox.restore
    idGenerator := t.idGenerator } }
  match tryRestore o.toOutcomes (continuationParams cfg t) m with
  | (m, some step) =>
    giveUp o t { m with sandbox := m.sandbox.clearTemplateRestoreState } (.restore step)
  | (m, none) =>
    if !cfg.cgroupParentPath.isEmpty && !o.addToCgroup then
      giveUp o t (rollbackContinuation o m) (.restore .addToCgroup)
    else if !o.dump then giveUp o t (rollbackContinuation o m) (.restore .dump)
    else ⟨m, true, none⟩

/-- Who restores. -/
inductive ContinuationCaller where
  | sandboxer
  | service
  deriving DecidableEq, Repr

def restoreContinuation (m : Machine) : ContinuationCaller → ContinuationResult
  | .sandboxer => startWithContinuationSnapshot cfg o t m
  | .service => restoreSandboxContinuation cfg o t m

/-- Every image of the entry is at its original path, as it was. -/
def DisksBack (before after : Files String File) : Prop :=
  ∀ entry ∈ t.diskImages,
    after (snapshotDiskPath (continuationParams cfg t) entry) =
      before (snapshotDiskPath (continuationParams cfg t) entry)

end

def ContinuationFailure.afterVm : ContinuationFailure → Bool
  | .snapshotFiles => false
  | .restore step => step.afterVm

/-! ## Moving the images and moving them back -/

section Moves

variable {o : Outcomes} {src : SnapshotRestoreParams} {m m' : Machine}

theorem moveBack_renamed {move : String × String} {done : Bool}
    (h : moveBack o m move = (m', done)) (hback : m'.movedBack = true) :
    m.movedBack = true ∧ done = true ∧ m.files.rename move.2 move.1 = some m'.files := by
  unfold moveBack at h
  split at h
  · rename_i files hfiles
    cases h
    split at hfiles
    · exact ⟨hback, rfl, hfiles⟩
    · simp at hfiles
  · cases h
    simp at hback

/-- If everything was moved back, the rollback made every reverse move. -/
theorem rollbackPendingMoves_renames (moves : List (String × String))
    (h : (rollbackPendingMoves o m moves).movedBack = true) :
    m.movedBack = true ∧
      Renames m.files (moves.map Prod.swap) (rollbackPendingMoves o m moves).files := by
  induction moves generalizing m with
  | nil => exact ⟨h, .nil⟩
  | cons move moves ih =>
    rcases hm : moveBack o m move with ⟨m₁, _ | _⟩ <;>
      simp only [rollbackPendingMoves, hm] at h ⊢
    · simpa using (moveBack_renamed hm h).2.1
    · obtain ⟨hrest, hrenames⟩ := ih h
      obtain ⟨hfirst, -, hrename⟩ := moveBack_renamed hm hrest
      exact ⟨hfirst, .cons hrename hrenames⟩

theorem rollbackPartialMove_renames (moves : List (String × String))
    (h : (rollbackPartialMove o m moves).movedBack = true) :
    m.movedBack = true ∧
      Renames m.files (moves.map Prod.swap) (rollbackPartialMove o m moves).files := by
  induction moves generalizing m with
  | nil => exact ⟨h, .nil⟩
  | cons move moves ih =>
    obtain ⟨hrest, hrenames⟩ := ih h
    obtain ⟨hfirst, -, hrename⟩ := moveBack_renamed rfl hrest
    exact ⟨hfirst, .cons hrename hrenames⟩

/-- The files outside the targets are as they were. -/
def Back (moves : List (String × String)) (before after : Files String File) : Prop :=
  ∀ p, p ∉ moves.map Prod.snd → after p = before p

/-- The loop over the images of a continuation, with the moves made so far: it makes all
of them, or moves back those it made. -/
theorem placeDisks_spec {pending : List (String × String)} {before : Files String File}
    {entries : List DiskImageEntry} {r : Except VmStep (List (String × String))}
    (haction : restoreAction src = .movedExclusive)
    (hap : Apart (pending ++ entries.map (diskMove src m.sandbox.baseDir)))
    (hpending : Renames before pending m.files)
    (h : placeDisks o src m pending entries = (m', r)) :
    (∀ moves, r = .ok moves → moves = pending ++ entries.map (diskMove src m.sandbox.baseDir) ∧
      Renames before moves m'.files) ∧
    (∀ step, r = .error step → m'.movedBack = true → Back
      (pending ++ entries.map (diskMove src m.sandbox.baseDir)) before m'.files) := by
  induction entries generalizing m pending with
  | nil =>
    cases h
    refine ⟨?_, by simp⟩
    intro moves hmoves
    cases hmoves
    simpa using hpending
  | cons entry entries ih =>
    simp only [placeDisks] at h
    split at h
    · -- the move fails, and those before it are undone
      cases h
      refine ⟨by simp, ?_⟩
      intro step _ hback p hp
      obtain ⟨-, hrenames⟩ := rollbackPartialMove_renames pending hback
      rw [List.map_append, List.mem_append, not_or] at hp
      refine renames_back hpending hrenames ?_ hp.1
      exact fun a ha b hb => hap a (List.mem_append_left _ ha) b (List.mem_append_left _ hb)
    · rename_i files hfiles
      rw [if_pos haction] at h
      have hrename : m.files.rename (diskMove src m.sandbox.baseDir entry).1
          (diskMove src m.sandbox.baseDir entry).2 = some files := by
        unfold placeDisk at hfiles
        split at hfiles
        · simp at hfiles
        · rwa [haction] at hfiles
      have hspec := ih (by simpa using hap) (hpending.snoc hrename) h
      simpa using hspec

def movesOf (src : SnapshotRestoreParams) (m : Machine) : List (String × String) :=
  src.diskImages.map (diskMove src m.sandbox.baseDir)

/-- What became of the files: once the VM was restored all moves are made, before that all
of them are undone. -/
structure Traced (moves : List (String × String)) (before : Files String File) (after : Machine)
    (afterVm : Bool) : Prop where
  moved : afterVm = true → Renames before moves after.files
  back : afterVm = false → after.movedBack = true → Back moves before after.files

/-- A restore that fails before it touches the files. -/
theorem Traced.of_files {moves : List (String × String)} {before : Files String File}
    (h : m.files = before) : Traced moves before m false := by
  refine ⟨by simp, ?_⟩
  intro _ _ p _
  rw [h]

/-- Only the files and whether they are back matter. -/
theorem Traced.congr {moves : List (String × String)} {before : Files String File} {b : Bool}
    (h : Traced moves before m b) (hfiles : m'.files = m.files)
    (hback : m'.movedBack = m.movedBack) : Traced moves before m' b := by
  refine ⟨?_, ?_⟩
  · rw [hfiles]
    exact h.moved
  · rw [hfiles, hback]
    exact h.back

section

variable (htype : src.snapshotType = .continuation) (hap : Apart (movesOf src m))

include htype hap

theorem prepareRestoreBlockArtifacts_spec {r : Except VmStep (List (String × String))}
    (h : prepareRestoreBlockArtifacts o src m = (m', r)) :
    (∀ moves, r = .ok moves → moves = movesOf src m ∧ Renames m.files moves m'.files) ∧
    (∀ step, r = .error step → Traced (movesOf src m) m.files m' false) := by
  have haction : restoreAction src = .movedExclusive := by simp [restoreAction, htype]
  unfold prepareRestoreBlockArtifacts at h
  split at h
  · rename_i hempty
    cases h
    refine ⟨?_, by simp⟩
    intro moves hmoves
    cases hmoves
    have hnil : src.diskImages = [] := by simpa using hempty
    simp [movesOf, hnil, Renames.nil]
  split at h
  · cases h
    exact ⟨by simp, fun _ _ => Traced.of_files rfl⟩
  · obtain ⟨hok, herr⟩ := placeDisks_spec haction hap .nil h
    exact ⟨hok, fun step hstep => ⟨by simp, fun _ => herr step hstep⟩⟩

theorem vmRestore_traced {r : Option VmStep} (h : vmRestore o src m = (m', r)) :
    Traced (movesOf src m) m.files m' r.isNone := by
  unfold vmRestore at h
  split at h
  · cases h
    exact Traced.of_files rfl
  rcases hprep : prepareRestoreBlockArtifacts o src m with ⟨m₁, e | moves⟩ <;>
    rw [hprep] at h <;> obtain ⟨hok, herr⟩ := prepareRestoreBlockArtifacts_spec htype hap hprep
  · cases h
    exact herr e rfl
  · obtain ⟨rfl, hrenames⟩ := hok moves rfl
    have hrolled :
        Traced (movesOf src m) m.files (rollbackPendingMoves o m₁ (movesOf src m)) false := by
      refine ⟨by simp, ?_⟩
      intro _ hback p hp
      exact renames_back hrenames (rollbackPendingMoves_renames _ hback).2 hap hp
    simp only at h
    repeat' split at h
    all_goals cases h
    all_goals first | exact hrolled | exact ⟨fun _ => hrenames, by simp⟩

theorem tryRestore_traced {r : Option RestoreStep} (h : tryRestore o src m = (m', r)) :
    Traced (movesOf src m) m.files m' (pastVm r) := by
  unfold tryRestore at h
  rcases hvm : vmRestore o src m with ⟨m₁, _ | vmStep⟩ <;> rw [hvm] at h <;>
    have htraced := vmRestore_traced htype hap hvm
  · -- the VM is restored: nothing below touches a file again
    simp only at h
    split at h
    · cases h
      exact htraced
    · rename_i sb _
      rcases hguest : adoptGuest o src sb with ⟨sb', _ | step⟩ <;> rw [hguest] at h <;> cases h
      · exact htraced.congr rfl rfl
      · have hafter : pastVm (some step) = true := adoptGuest_afterVm hguest
        rw [hafter]
        exact htraced.congr rfl rfl
  · cases h
    exact htraced

theorem startFromSnapshot_traced {r : Option RestoreStep}
    (h : startFromSnapshot o src m = (m', r)) : Traced (movesOf src m) m.files m' (pastVm r) := by
  have hprep : prepareStep o src m.sandbox = (m.sandbox, none) := by simp [prepareStep, htype]
  unfold startFromSnapshot at h
  split at h
  · cases h
    exact Traced.of_files rfl
  split at h
  · cases h
    exact Traced.of_files rfl
  simp only [hprep] at h
  rcases htry : tryRestore o src { m with sandbox.restore := record src m.sandbox }
    with ⟨m₁, _ | step⟩ <;> rw [htry] at h <;> cases h <;>
    have htraced := tryRestore_traced htype (by exact hap) htry
  · rw [finishStart_pastVm]
    exact htraced.congr rfl rfl
  · exact htraced.congr rfl rfl

end

end Moves

/-! ## The entry that is opened again -/

section Reopened

variable {cfg : ContinuationConfig} {o : ContinuationOutcomes} {t : PooledTemplate} {m : Machine}
  {failure : ContinuationFailure}

/-- What a failed restore did to the files and to the marker. -/
def GivenUp (cfg : ContinuationConfig) (o : ContinuationOutcomes) (t : PooledTemplate) (m : Machine)
    (r : ContinuationResult) : Prop :=
  ∀ failure, r.failure = some failure →
    Traced (movesOf (continuationParams cfg t) m) m.files r.machine failure.afterVm ∧
      r.marker = leaseFail o t

theorem GivenUp.of_traced {m' : Machine}
    (h : Traced (movesOf (continuationParams cfg t) m) m.files m' failure.afterVm) :
    GivenUp cfg o t m (giveUp o t m' failure) := by
  intro failure' hfailure
  cases hfailure
  exact ⟨h, rfl⟩

theorem GivenUp.of_done {m' : Machine} {marker : Bool} : GivenUp cfg o t m ⟨m', marker, none⟩ := by
  intro failure h
  simp at h

section

variable (hap : Apart (movesOf (continuationParams cfg t) m))

include hap

theorem startWithContinuationSnapshot_givenUp :
    GivenUp cfg o t m (startWithContinuationSnapshot cfg o t m) := by
  have hpublish : (publishTemplateId o t m).files = m.files ∧
      (publishTemplateId o t m).sandbox.baseDir = m.sandbox.baseDir := by
    unfold publishTemplateId
    split <;> exact ⟨rfl, rfl⟩
  have hmoves : movesOf (continuationParams cfg t) (publishTemplateId o t m) =
      movesOf (continuationParams cfg t) m := by
    unfold movesOf
    rw [hpublish.2]
  unfold startWithContinuationSnapshot
  simp only
  split
  · have hclear : (clearPublished o (publishTemplateId o t m)).files = m.files := by
      rw [← hpublish.1]
      unfold clearPublished
      split <;> rfl
    exact GivenUp.of_traced (Traced.of_files hclear)
  · rcases hstart : startFromSnapshot o.toOutcomes (continuationParams cfg t)
      (publishTemplateId o t m) with ⟨m₁, _ | step⟩
    · exact GivenUp.of_done
    · have htraced := startFromSnapshot_traced rfl (by rw [hmoves]; exact hap) hstart
      rw [hmoves, hpublish.1] at htraced
      exact GivenUp.of_traced htraced

theorem restoreSandboxContinuation_givenUp :
    GivenUp cfg o t m (restoreSandboxContinuation cfg o t m) := by
  unfold restoreSandboxContinuation
  simp only
  rcases htry : tryRestore o.toOutcomes (continuationParams cfg t)
    { m with sandbox := { m.sandbox with
      restore := continuationRecord cfg t m.sandbox.restore
      idGenerator := t.idGenerator } } with ⟨m₁, _ | step⟩ <;>
    have htraced := tryRestore_traced rfl (by exact hap) htry
  · have hrolled : ∀ step : RestoreStep, step.afterVm = true →
        GivenUp cfg o t m (giveUp o t (rollbackContinuation o m₁) (.restore step)) := by
      intro step hafter
      have hpast : pastVm none = (ContinuationFailure.restore step).afterVm := hafter.symm
      rw [hpast] at htraced
      exact GivenUp.of_traced (htraced.congr rfl rfl)
    simp only
    split
    · exact hrolled _ rfl
    split
    · exact hrolled _ rfl
    · exact GivenUp.of_done
  · exact GivenUp.of_traced (htraced.congr rfl rfl)

theorem restoreContinuation_givenUp (caller : ContinuationCaller) :
    GivenUp cfg o t m (restoreContinuation cfg o t m caller) := by
  cases caller with
  | sandboxer => exact startWithContinuationSnapshot_givenUp hap
  | service => exact restoreSandboxContinuation_givenUp hap

/-- All moves undone, every image is at its path again: no image has its original path
among the targets. -/
theorem Back.disksBack {after : Files String File}
    (h : Back (movesOf (continuationParams cfg t) m) m.files after) :
    DisksBack cfg t m.files after := by
  intro entry hentry
  refine h _ ?_
  intro htarget
  obtain ⟨move, hmove, heq⟩ := List.mem_map.mp htarget
  exact hap _ (List.mem_map_of_mem hentry) move hmove heq.symm

/-- All moves made, no image is at its path any more. -/
theorem not_disksBack_of_renames {after : Files String File}
    (h : Renames m.files (movesOf (continuationParams cfg t) m) after) (hsome : t.diskImages ≠ []) :
    ¬ DisksBack cfg t m.files after := by
  intro hback
  obtain ⟨entry, hentry⟩ := List.exists_mem_of_ne_nil _ hsome
  have hmove : diskMove (continuationParams cfg t) m.sandbox.baseDir entry ∈
      movesOf (continuationParams cfg t) m := List.mem_map_of_mem hentry
  have hgone : after (snapshotDiskPath (continuationParams cfg t) entry) = none :=
    h.source_none hap hmove
  have hthere : m.files (snapshotDiskPath (continuationParams cfg t) entry) ≠ none :=
    h.source_some hap hmove
  exact hthere (by rw [← hback entry hentry, hgone])

end

/-- **Reopened entries.** A restore from a continuation fails, and whatever had to be
moved back was. The entry is then complete if it can be acquired again, if and only if
the marker could not be removed, the entry has no disk image, or the VM had not been
restored. -/
theorem reopened_entry_complete_iff (cfg : ContinuationConfig) (o : ContinuationOutcomes)
    (t : PooledTemplate) (m : Machine) (caller : ContinuationCaller)
    (failure : ContinuationFailure) (hap : Apart (movesOf (continuationParams cfg t) m))
    (hfail : (restoreContinuation cfg o t m caller).failure = some failure)
    (hback : (restoreContinuation cfg o t m caller).machine.movedBack = true) :
    ((restoreContinuation cfg o t m caller).marker = false →
        DisksBack cfg t m.files (restoreContinuation cfg o t m caller).machine.files) ↔
      leaseFail o t = true ∨ t.diskImages = [] ∨ failure.afterVm = false := by
  obtain ⟨htraced, hmarker⟩ := restoreContinuation_givenUp hap caller failure hfail
  rw [hmarker]
  cases hafter : failure.afterVm with
  | false =>
    have hdisks := (htraced.back hafter hback).disksBack hap
    simp [hdisks]
  | true =>
    have hrenames := htraced.moved hafter
    refine ⟨?_, ?_⟩
    · intro h
      by_contra hnot
      simp only [not_or] at hnot
      obtain ⟨hremoved, hsome, -⟩ := hnot
      exact not_disksBack_of_renames hap hrenames hsome (h (by simpa using hremoved))
    · rintro (hstays | hnone | hfalse) hremoved
      · rw [hstays] at hremoved
        simp at hremoved
      · intro entry hentry
        rw [hnone] at hentry
        simp at hentry
      · simp at hfalse

end Reopened

/-! ## An entry without its disk -/

/-- A continuation with one disk image. -/
def pausedPod : PooledTemplate where
  id := "c1"
  key := ⟨"pod"⟩
  snapshotType := .continuation
  snapshotDir := "/var/lib/kuasar/pod/g0"
  diskImages := [⟨"d1", "_disk1", "disks/d1.img"⟩]
  workloadIdentity := some ⟨"pod", 0⟩

/-- Memory is copied, and the sandbox has no parent cgroup. -/
def copyConfig : ContinuationConfig := ⟨false, .copy, ""⟩

def dumpFails : ContinuationOutcomes :=
  { Outcomes.smooth with
    dump := false, published := true, cleared := true, snapshotFiles := true, removeMarker := true }

def oneImage : Machine where
  sandbox := freshSandbox
  files p := if p = "/var/lib/kuasar/pod/g0/disks/d1.img" then some (.image "data") else none
  movedBack := true

theorem pausedPod_apart : Apart (movesOf (continuationParams copyConfig pausedPod) oneImage) := by
  intro move hmove move' hmove'
  have hmoves : movesOf (continuationParams copyConfig pausedPod) oneImage =
      [("/var/lib/kuasar/pod/g0/disks/d1.img", "/run/kuasar/s1/d1.img")] := by decide
  rw [hmoves, List.mem_singleton] at hmove hmove'
  rw [hmove, hmove']
  decide

theorem reopened_entry_complete_iff_pausedPod :
    ((restoreContinuation copyConfig dumpFails pausedPod oneImage .service).marker = false →
        DisksBack copyConfig pausedPod oneImage.files
          (restoreContinuation copyConfig dumpFails pausedPod oneImage .service).machine.files) ↔
      leaseFail dumpFails pausedPod = true ∨ pausedPod.diskImages = [] ∨
        (ContinuationFailure.restore .dump).afterVm = false :=
  reopened_entry_complete_iff copyConfig dumpFails pausedPod oneImage .service (.restore .dump)
    pausedPod_apart rfl rfl

/-- The dump failed, everything that had to be moved back was, and the entry can be
acquired again; but its image is in the sandbox's directory. -/
def Stranded (r : ContinuationResult) : Prop :=
  r.failure = some (.restore .dump) ∧ r.marker = false ∧ r.machine.movedBack = true ∧
    oneImage.files "/var/lib/kuasar/pod/g0/disks/d1.img" = some (.image "data") ∧
    r.machine.files "/var/lib/kuasar/pod/g0/disks/d1.img" = none ∧
    r.machine.files "/run/kuasar/s1/d1.img" = some (.image "data") ∧
    ¬ DisksBack copyConfig pausedPod oneImage.files r.machine.files

/-- A dump that fails after the VM was restored strands the image, whoever restores. -/
theorem reopened_without_disk :
    Stranded (restoreContinuation copyConfig dumpFails pausedPod oneImage .sandboxer) ∧
      Stranded (restoreContinuation copyConfig dumpFails pausedPod oneImage .service) := by
  constructor
  all_goals
    refine ⟨rfl, rfl, rfl, by decide, by decide, by decide, ?_⟩
    intro hback
    have himage := hback ⟨"d1", "_disk1", "disks/d1.img"⟩ (by decide)
    revert himage
    decide

end Kuasar.Restore

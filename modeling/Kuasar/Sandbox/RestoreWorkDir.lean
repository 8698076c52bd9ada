import Kuasar.Tla.Core
import Kuasar.Sandbox.Restore

/-!
# Sandbox.RestoreWorkDir — the directory that a VM is restored from

A restore patches the config of its snapshot into the work directory of the sandbox, links the
memory artifacts of the snapshot beside it, and has the hypervisor restore the VM from that
directory. A link that is already there is left as it is. The directory is removed when the restore
fails, and after one that copied the memory; when the VM keeps reading its memory from the snapshot
the directory stays, also if a later step of the start fails and the VM is killed.

All attempts on a sandbox share the directory, while each of them patches its own config. So the
links are those of the attempt only if no earlier one left the directory for another snapshot
(`SameSnapshot`). The attempts are those of `Restore.startFromSnapshot`; here the memory backend is
no longer an outcome but what the links make of it.
-/

namespace Kuasar.RestoreWorkDir

open Restore Tla

/-- The work directory: the snapshot directory its config was patched from, and the targets of its
links by name. -/
structure WorkDir where
  config : Option String
  links : Files String String

def memoryArtifactsForMode : MemoryRestoreMode → List String
  | .copy | .onDemand => ["memory-ranges", "state.json"]
  | .fileBackend => ["memory-ranges", "state.json", "memory.img"]
  | .externalUffd => ["memory-ranges", "state.json", "memory.img", "memory-ranges.manifest"]

/-- An attempt: its source, the outcomes of its steps, and of those on the work directory.
`available` is the `metadata` of an artifact, `symlink` fails for another reason than that there is
something, `client` is the connection to the hypervisor, and `kept` is what a clean-up leaves that
fails. -/
structure Attempt where
  src : SnapshotRestoreParams
  outcomes : Outcomes
  available : String → Bool
  symlink : String → Bool
  client : Bool
  cleaned : Bool
  kept : String → Bool

def artifactPath (snapshotDir artifact : String) : String := snapshotDir ++ "/" ++ artifact

section

variable (a : Attempt) (dir : WorkDir)

/-- `symlink_idempotent`. -/
def symlinkIdempotent (artifact : String) : Option WorkDir :=
  if !a.symlink artifact then none
  else
    match dir.links artifact with
    | some _ => some dir
    | none =>
      some { dir with links :=
        dir.links.write artifact (artifactPath a.src.snapshotDir artifact) }

/-- The loop of `prepare_memory_backend`. -/
def linkArtifacts (dir : WorkDir) : List String → WorkDir × Bool
  | [] => (dir, true)
  | x :: xs =>
    if !a.available x then (dir, false)
    else
      match symlinkIdempotent a dir x with
      | none => (dir, false)
      | some dir => linkArtifacts dir xs

/-- `patch_snapshot_config` and `prepare_memory_backend`. -/
def prepareMemoryBackend : WorkDir × Bool :=
  linkArtifacts a { dir with config := some a.src.snapshotDir }
    (memoryArtifactsForMode a.src.memoryRestoreMode)

def Attempt.outcomesIn : Outcomes :=
  { a.outcomes with memoryBackend := (prepareMemoryBackend a dir).2 }

/-- The directory after the VM's restore, by its result. The config is written in one piece. -/
def afterRestore : Option VmStep → WorkDir
  | some .workDir | some .blockDir | some (.disk _) | some .validateConfig
  | some .patchConfig => dir
  | _ => (prepareMemoryBackend a dir).1

/-- `cleanup_work_dir`; a failure is logged. -/
def cleanupWorkDir : WorkDir :=
  if a.cleaned then ⟨none, fun _ => none⟩
  else ⟨if a.kept "config.json" then dir.config else none,
    fun x => if a.kept x then dir.links x else none⟩

end

/-- A call of the hypervisor's restore: the snapshot directory and the mode of the attempt, and the
directory that the hypervisor reads. -/
structure RestoreCall where
  snapshotDir : String
  mode : MemoryRestoreMode
  dir : WorkDir

/-- The call that the attempt makes with this directory, if its VM's restore comes to it. -/
def issued (a : Attempt) (dir : WorkDir) (r : Option VmStep) : List RestoreCall :=
  let call := ⟨a.src.snapshotDir, a.src.memoryRestoreMode, dir⟩
  match r with
  | some .api => if a.client then [call] else []
  | some .agentReady | none => [call]
  | _ => []

/-- The result of the VM's restore in an attempt, if it comes to it. -/
def vmResult : Option RestoreStep → Option (Option VmStep)
  | some .lookup | some .preStart | some (.prepareNetwork _) => none
  | some (.restoreVm step) => some (some step)
  | _ => some none

/-- `try_restore` succeeded. -/
def restored : Option RestoreStep → Bool
  | some .addToCgroup | some .postStart | some .dump | none => true
  | _ => false

/-- The sandbox, its work directory and the calls that were made. Kept for the proof: the snapshot
directory of the last attempt that left the work directory behind. -/
structure St where
  machine : Machine
  dir : WorkDir
  calls : List RestoreCall
  left : Option String

/-- `start_from_snapshot`. -/
def start (a : Attempt) (s : St) : St :=
  let (m, result) := startFromSnapshot (a.outcomesIn s.dir) a.src s.machine
  match vmResult result with
  | none => { s with machine := m }
  | some r =>
    let dir := afterRestore a s.dir r
    -- a VM that reads its memory from the snapshot keeps the directory
    let keeps := restored result && a.src.memoryRestoreMode ≠ .copy
    { machine := m
      dir := if keeps then dir else cleanupWorkDir a dir
      calls := s.calls ++ issued a dir r
      left := if keeps || !a.cleaned then some a.src.snapshotDir else none }

def next (a : Attempt) : Action St := fun s s' => s' = start a s

/-- No attempt was made. -/
def Init : StatePred St := fun s =>
  s.dir = ⟨none, fun _ => none⟩ ∧ s.calls = [] ∧ s.left = none

/-- What the hypervisor reads is of the snapshot directory of the attempt. -/
def RestoreCall.Consistent (c : RestoreCall) : Prop :=
  (∀ x ∈ memoryArtifactsForMode c.mode, c.dir.links x = some (artifactPath c.snapshotDir x)) ∧
    c.dir.config = some c.snapshotDir

def CallsConsistent (s : St) : Prop := ∀ c ∈ s.calls, c.Consistent

/-- The attempt is from the snapshot directory for which the work directory was left, if it was. -/
def SameSnapshot (a : Attempt) (s : St) : Prop := ∀ d, s.left = some d → d = a.src.snapshotDir

/-! ## The links -/

/-- Every link is to its artifact in `d`. -/
def LinksTo (d : String) (dir : WorkDir) : Prop :=
  ∀ x target, dir.links x = some target → target = artifactPath d x

variable {a : Attempt} {dir dir' : WorkDir}

theorem symlinkIdempotent_spec {x : String} (h : symlinkIdempotent a dir x = some dir')
    (hto : LinksTo a.src.snapshotDir dir) :
    LinksTo a.src.snapshotDir dir' ∧ dir'.config = dir.config ∧
      dir'.links x = some (artifactPath a.src.snapshotDir x) ∧
      ∀ y target, dir.links y = some target → dir'.links y = some target := by
  unfold symlinkIdempotent at h
  split at h
  · cases h
  split at h
  · rename_i target htarget
    cases h
    exact ⟨hto, rfl, by rw [htarget, hto x target htarget], fun _ _ h => h⟩
  · rename_i hnone
    cases h
    refine ⟨?_, rfl, by simp [Files.write], ?_⟩
    · intro y target hy
      by_cases hyx : y = x
      · subst hyx
        simpa [Files.write, eq_comm] using hy
      · exact hto y target (by simpa [Files.write, hyx] using hy)
    · intro y target hy
      have hyx : y ≠ x := by
        rintro rfl
        rw [hnone] at hy
        cases hy
      simpa [Files.write, hyx] using hy

theorem linkArtifacts_spec (xs : List String) (hto : LinksTo a.src.snapshotDir dir) :
    LinksTo a.src.snapshotDir (linkArtifacts a dir xs).1 ∧
      (linkArtifacts a dir xs).1.config = dir.config ∧
      (∀ y target, dir.links y = some target →
        (linkArtifacts a dir xs).1.links y = some target) ∧
      ((linkArtifacts a dir xs).2 = true → ∀ x ∈ xs,
        (linkArtifacts a dir xs).1.links x = some (artifactPath a.src.snapshotDir x)) := by
  induction xs generalizing dir with
  | nil => exact ⟨hto, rfl, fun _ _ h => h, by simp⟩
  | cons x xs ih =>
    rw [linkArtifacts]
    split
    · exact ⟨hto, rfl, fun _ _ h => h, by simp⟩
    split
    · exact ⟨hto, rfl, fun _ _ h => h, by simp⟩
    · rename_i dir' hlink
      obtain ⟨hto', hconfig, hx, hkeep⟩ := symlinkIdempotent_spec hlink hto
      obtain ⟨hto'', hconfig', hkeep', hall⟩ := ih hto'
      refine ⟨hto'', hconfig'.trans hconfig, fun y t hy => hkeep' y t (hkeep y t hy), ?_⟩
      intro hok y hy
      rcases List.mem_cons.mp hy with rfl | hy
      · exact hkeep' y _ hx
      · exact hall hok y hy

theorem prepareMemoryBackend_spec (hto : LinksTo a.src.snapshotDir dir) :
    LinksTo a.src.snapshotDir (prepareMemoryBackend a dir).1 ∧
      (prepareMemoryBackend a dir).1.config = some a.src.snapshotDir ∧
      ((prepareMemoryBackend a dir).2 = true →
        ∀ x ∈ memoryArtifactsForMode a.src.memoryRestoreMode,
          (prepareMemoryBackend a dir).1.links x = some (artifactPath a.src.snapshotDir x)) := by
  obtain ⟨hto', hconfig, -, hall⟩ := @linkArtifacts_spec a
    { dir with config := some a.src.snapshotDir }
    (memoryArtifactsForMode a.src.memoryRestoreMode) hto
  exact ⟨hto', hconfig, hall⟩

/-! ## The attempt came to its call -/

/-- The VM's restore ended after the memory backend was prepared. -/
def PastBackend : Option VmStep → Prop
  | some .launch | some .api | some .agentReady | none => True
  | _ => False

section Calls

variable {o : Outcomes} {src : SnapshotRestoreParams} {m m' : Machine}

theorem placeDisks_error {pending : List (String × String)} {entries : List DiskImageEntry}
    {e : VmStep} (h : placeDisks o src m pending entries = (m', .error e)) :
    ∃ id, e = .disk id := by
  induction entries generalizing m pending with
  | nil => cases h
  | cons entry entries ih =>
    rw [placeDisks] at h
    split at h
    · cases h
      exact ⟨_, rfl⟩
    · exact ih h

theorem prepareRestoreBlockArtifacts_error {e : VmStep}
    (h : prepareRestoreBlockArtifacts o src m = (m', .error e)) : ¬ PastBackend (some e) := by
  unfold prepareRestoreBlockArtifacts at h
  split at h
  · cases h
  split at h
  · cases h
    exact id
  · obtain ⟨id, rfl⟩ := placeDisks_error h
    exact fun hpast => hpast

theorem vmRestore_past (h : PastBackend (vmRestore o src m).2) : o.memoryBackend = true := by
  by_contra hfalse
  rw [Bool.not_eq_true] at hfalse
  unfold vmRestore at h
  split at h
  · exact h
  rcases hm : prepareRestoreBlockArtifacts o src m with ⟨m', e | moves⟩ <;> rw [hm] at h
  · exact prepareRestoreBlockArtifacts_error hm h
  · simp only [hfalse, Bool.not_false, if_true] at h
    repeat' split at h
    all_goals exact h

/-- What comes after the restore of the VM fails with no result of it. -/
theorem vmResult_of_pastVm {r : Option RestoreStep} (h : pastVm r = true) :
    vmResult r = some none := by
  rcases r with _ | step
  · rfl
  · cases step <;> first | rfl | cases h

theorem tryRestore_vmResult : vmResult (tryRestore o src m).2 = some (vmRestore o src m).2 := by
  unfold tryRestore
  rcases hvm : vmRestore o src m with ⟨m₁, _ | step⟩
  · simp only
    split
    · rfl
    · split
      · rename_i hguest
        exact vmResult_of_pastVm (adoptGuest_afterVm hguest)
      · rfl
  · rfl

/-- The result of the VM's restore in a start is that of the VM's restore. -/
theorem startFromSnapshot_vmResult {r : Option VmStep}
    (h : vmResult (startFromSnapshot o src m).2 = some r) : ∃ m', (vmRestore o src m').2 = r := by
  unfold startFromSnapshot at h
  split at h
  · cases h
  split at h
  · cases h
  split at h
  · cases h
  · rename_i sb hprep
    refine ⟨{ m with sandbox := { sb with restore := record src sb } }, ?_⟩
    have htry := @tryRestore_vmResult o src
      { m with sandbox := { sb with restore := record src sb } }
    rcases htr : tryRestore o src { m with sandbox := { sb with restore := record src sb } } with
      ⟨m₁, _ | step⟩ <;> rw [htr] at h htry
    · have hfin := vmResult_of_pastVm (@finishStart_pastVm o src m₁.sandbox)
      rcases hf : finishStart o src m₁.sandbox with ⟨sb₂, step₂⟩
      rw [hf] at hfin
      simp only [hf] at h
      exact (Option.some.inj htry).symm.trans (Option.some.inj (hfin.symm.trans h))
    · exact Option.some.inj (htry.symm.trans h)

end Calls

/-! ## The invariant -/

structure Inv (s : St) : Prop where
  links : ∀ x target, s.dir.links x = some target →
    ∃ d, s.left = some d ∧ target = artifactPath d x
  calls : CallsConsistent s

theorem init_inv {s : St} (h : Init s) : Inv s := by
  obtain ⟨hdir, hcalls, -⟩ := h
  constructor
  · intro x target hx
    rw [hdir] at hx
    cases hx
  · intro c hc
    rw [hcalls] at hc
    cases hc

theorem Inv.linksTo {s : St} (hinv : Inv s) (hok : SameSnapshot a s) :
    LinksTo a.src.snapshotDir s.dir := by
  intro x target hx
  obtain ⟨d, hd, rfl⟩ := hinv.links x target hx
  rw [hok d hd]

theorem afterRestore_linksTo (r : Option VmStep) (hto : LinksTo a.src.snapshotDir dir) :
    LinksTo a.src.snapshotDir (afterRestore a dir r) := by
  have hprep := (prepareMemoryBackend_spec hto).1
  unfold afterRestore
  split
  all_goals first | exact hto | exact hprep

theorem cleanupWorkDir_links {x target : String}
    (h : (cleanupWorkDir a dir).links x = some target) :
    a.cleaned = false ∧ dir.links x = some target := by
  unfold cleanupWorkDir at h
  split at h
  · cases h
  · rename_i hcleaned
    simp only at h
    split at h
    · exact ⟨by simpa using hcleaned, h⟩
    · cases h

/-- The call of an attempt that came to it reads the attempt's own links. -/
theorem issued_consistent {m : Machine} {r : Option VmStep} {c : RestoreCall}
    (hto : LinksTo a.src.snapshotDir dir) (hvm : (vmRestore (a.outcomesIn dir) a.src m).2 = r)
    (hc : c ∈ issued a (afterRestore a dir r) r) : c.Consistent := by
  obtain ⟨-, hconfig, hall⟩ := prepareMemoryBackend_spec hto
  have hpast : PastBackend r ∧ afterRestore a dir r = (prepareMemoryBackend a dir).1 ∧
      c = ⟨a.src.snapshotDir, a.src.memoryRestoreMode, afterRestore a dir r⟩ := by
    unfold issued at hc
    split at hc
    · split at hc
      · exact ⟨trivial, rfl, List.mem_singleton.mp hc⟩
      · cases hc
    · exact ⟨trivial, rfl, List.mem_singleton.mp hc⟩
    · exact ⟨trivial, rfl, List.mem_singleton.mp hc⟩
    · cases hc
  obtain ⟨hpast, hdir, rfl⟩ := hpast
  rw [← hvm] at hpast
  have hback : (prepareMemoryBackend a dir).2 = true := vmRestore_past hpast
  constructor
  · rw [hdir]
    exact hall hback
  · rw [hdir]
    exact hconfig

theorem step_inv {s s' : St} (hok : SameSnapshot a s) (h : next a s s') (hinv : Inv s) :
    Inv s' := by
  have hto := hinv.linksTo hok
  obtain rfl : s' = start a s := h
  unfold start
  simp only
  split
  · exact ⟨hinv.links, hinv.calls⟩
  · rename_i r hr
    obtain ⟨m', hvm⟩ := startFromSnapshot_vmResult hr
    have hto' := afterRestore_linksTo r hto
    constructor
    · intro x target hx
      split at hx
      · rename_i hkeeps
        exact ⟨a.src.snapshotDir, by rw [hkeeps]; rfl, hto' x target hx⟩
      · obtain ⟨hcleaned, hx⟩ := cleanupWorkDir_links hx
        exact ⟨a.src.snapshotDir, by rw [hcleaned]; simp, hto' x target hx⟩
    · intro c hc
      rcases List.mem_append.mp hc with hc | hc
      · exact hinv.calls c hc
      · exact issued_consistent hto hvm hc

/-- In every run of attempts each of which is from the snapshot directory for which the work
directory was left, if it was, every restore call reads the snapshot of its attempt. -/
theorem restore_calls_consistent {s : St} (h : Reachable Init (Guarded SameSnapshot next) s) :
    CallsConsistent s :=
  (h.guarded_invariant (fun _ => init_inv) (fun _ _ _ hok hs hi => step_inv hok hs hi)).calls

/-- An attempt on an environment snapshot whose memory stays in its files. -/
def fileBacked (snapshotDir : String) (outcomes : Outcomes) : Attempt where
  src :=
    { snapshotDir := snapshotDir, templateId := none, snapshotType := .environment
      idGenerator := 0, diskImages := [], storages := [], orphanContainerIds := []
      leaseMode := .shared, reflinkSupported := false, memoryRestoreMode := .fileBackend
      warmForkTargets := none }
  outcomes := outcomes
  available := fun _ => true
  symlink := fun _ => true
  client := true
  cleaned := true
  kept := fun _ => false

/-- A sandbox that was never restored. -/
def fresh : St := ⟨⟨freshSandbox, fun _ => none, true⟩, ⟨none, fun _ => none⟩, [], none⟩

theorem fresh_reachable : Reachable Init (Guarded SameSnapshot next) fresh :=
  .init ⟨rfl, rfl, rfl⟩

def rolledBack : Attempt := fileBacked "/snap/a" { Outcomes.smooth with dump := false }

theorem rolledBack_reachable :
    Reachable Init (Guarded SameSnapshot next) (start rolledBack fresh) :=
  fresh_reachable.step ⟨rolledBack, nofun, rfl⟩

/-- The next attempt is from the same snapshot. -/
theorem restore_calls_consistent_retry :
    CallsConsistent (start (fileBacked "/snap/a" .smooth) (start rolledBack fresh)) :=
  restore_calls_consistent (rolledBack_reachable.step
    ⟨fileBacked "/snap/a" .smooth, fun _ h => (Option.some.inj h).symm, rfl⟩)

/-- The next attempt is from another snapshot: its VM is restored from the memory of the first and
the config of the second. -/
theorem rollback_leaves_links_of_other_snapshot :
    ∃ s : St, Reachable Init (AnyStep next) s ∧
      s.calls.map (fun c => (c.snapshotDir, c.dir.config, c.dir.links "memory-ranges")) =
        [("/snap/a", some "/snap/a", some "/snap/a/memory-ranges"),
          ("/snap/b", some "/snap/b", some "/snap/a/memory-ranges")] ∧
      ¬ CallsConsistent s := by
  have hr := rolledBack_reachable.unguarded.anyStep (fileBacked "/snap/b" .smooth) rfl
  have hcalls : (start (fileBacked "/snap/b" .smooth) (start rolledBack fresh)).calls.map
      (fun c => (c.snapshotDir, c.dir.config, c.dir.links "memory-ranges")) =
        [("/snap/a", some "/snap/a", some "/snap/a/memory-ranges"),
          ("/snap/b", some "/snap/b", some "/snap/a/memory-ranges")] := by decide
  refine ⟨_, hr, hcalls, ?_⟩
  intro hcons
  have hmem := List.mem_cons_of_mem ("/snap/a", some "/snap/a", some "/snap/a/memory-ranges")
    (List.mem_singleton_self ("/snap/b", some "/snap/b", some "/snap/a/memory-ranges"))
  rw [← hcalls] at hmem
  obtain ⟨c, hc, heq⟩ := List.mem_map.mp hmem
  have hlink := (hcons c hc).1 "memory-ranges" (by cases c.mode <;> decide)
  simp only [Prod.mk.injEq] at heq
  rw [heq.1, heq.2.2] at hlink
  exact absurd hlink (by decide)

end Kuasar.RestoreWorkDir

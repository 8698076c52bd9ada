import Kuasar.Data.Files
import Kuasar.Sandbox.Metadata

/-!
# Sandbox.Restore — restoring a sandbox from a snapshot

A restore goes through three layers, each with a rollback of its own: the VM places the
disk images and starts the hypervisor (`vmRestore`), the sandbox connects to the guest
and brings its storages, network and tasks in line (`tryRestore`), and the sandboxer
prepares the network before and finishes the start after it (`startFromSnapshot`).

The layers are functions of the sandbox and of the files, and of the outcome of every
fallible step (`Outcomes`). They return what they leave behind, and the step at which
they failed.
-/

namespace Kuasar.Restore

/-! ## The VM -/

/-- A tap device to be plugged into the restored VM. -/
structure NetHotplugInfo where
  id : String
  mac : String
  rawFds : List ℕ
  numQueues : ℕ
  deriving DecidableEq, Repr

/-- The configured devices of a VM, the file descriptors it passes to the hypervisor, and
the tap devices that wait to be plugged in. -/
structure Vm where
  devices : List String
  fds : List ℕ
  pendingNetHotplug : List NetHotplugInfo
  deriving DecidableEq, Repr

/-- The interfaces of a network namespace. The twin of a veth is the tap made for it, with
its queues. -/
inductive LinkType where
  | veth (twin : Option (List ℕ))
  | vhostUser
  | physical
  | tap
  | other
  deriving DecidableEq, Repr

structure Interface where
  id : String
  mac : String
  type : LinkType
  prepares : Bool
  deriving DecidableEq, Repr

/-- Why a network could not be attached. A tap without queues fails an assertion. -/
inductive NetworkError where
  | discover
  | prepare (id : String)
  | noTap (id : String)
  | notSupported (id : String)
  | noQueues (id : String)
  deriving DecidableEq, Repr

/-- `add_device`. -/
def Vm.addDevice (vm : Vm) (id : String) : Vm := { vm with devices := vm.devices ++ [id] }

/-- `attach` of a tap device. -/
def Vm.attachTap (vm : Vm) (id mac : String) (fds : List ℕ) : Vm where
  devices := vm.devices ++ [id]
  fds := vm.fds ++ fds
  pendingNetHotplug := vm.pendingNetHotplug ++ [⟨id, mac, fds, fds.length * 2⟩]

/-- `attach_to` of an interface. -/
def Interface.attachTo (i : Interface) (vm : Vm) : Except NetworkError Vm :=
  match i.type with
  | .veth none => .error (.noTap i.id)
  | .veth (some []) => .error (.noQueues i.id)
  | .veth (some (fd :: fds)) => .ok (vm.attachTap i.id i.mac (fd :: fds))
  | .vhostUser => .error (.notSupported i.id)
  | .physical => .ok (vm.addDevice i.id)
  | .tap => .error (.noQueues i.id)
  | .other => .ok vm

/-- `attach_to` of a network: the interfaces one by one, up to the first that fails. -/
def attachNetwork (vm : Vm) : List Interface → Vm × Option NetworkError
  | [] => (vm, none)
  | i :: is =>
    if !i.prepares then (vm, some (.prepare i.id))
    else
      match i.attachTo vm with
      | .error e => (vm, some e)
      | .ok vm => attachNetwork vm is

/-! ## The sandbox -/

inductive SandboxStatus where
  | created
  | running (pid : ℕ)
  | stopped
  | paused
  deriving DecidableEq, Repr

/-- A sandbox, as far as a restore reads or writes it. `client` is the connection to the
guest agent. -/
structure Sandbox where
  baseDir : String
  netns : String
  virtioBlk : Bool
  status : SandboxStatus
  storages : List Storage
  restore : RestoreMetadata
  client : Option ℕ
  idGenerator : ℕ
  network : Option (List Interface)
  containers : List String
  vm : Vm
  deriving DecidableEq, Repr

/-- What stands at a path: an image or a link to one. -/
inductive File where
  | image (content : String)
  | link (target : String)
  deriving DecidableEq, Repr

/-- A sandbox and the files. Kept for the proof: whether every disk image that was to be
moved back was. -/
structure Machine where
  sandbox : Sandbox
  files : Files String File
  movedBack : Bool

/-- What a restore is made from. `warmForkTargets` are the containers a WarmFork restore
injects its task into. -/
structure SnapshotRestoreParams where
  snapshotDir : String
  templateId : Option String
  snapshotType : SnapshotType
  idGenerator : ℕ
  diskImages : List DiskImageEntry
  storages : List Storage
  orphanContainerIds : List String
  leaseMode : TemplateLeaseMode
  reflinkSupported : Bool
  memoryRestoreMode : MemoryRestoreMode
  warmForkTargets : Option (List WarmForkTarget)
  deriving DecidableEq, Repr

/-- The outcome of every fallible step. `interfaces` is what is found in the network
namespace, `placeDisk` and `moveBack` go by the path of an image in the snapshot,
`connect` is the connection to the guest agent, `pid` that of the new hypervisor, and
`removeContainers` what removing the containers does to the storages. -/
structure Outcomes where
  sandboxFound : Bool
  preStart : Bool
  interfaces : Option (List Interface)
  workDir : Bool
  blockDir : Bool
  placeDisk : String → Bool
  moveBack : String → Bool
  validateConfig : Bool
  patchConfig : Bool
  memoryBackend : Bool
  launch : Bool
  api : Bool
  agentReady : Bool
  connect : Option ℕ
  hotplug : Bool
  refreshIdentity : Bool
  injectTask : Bool
  pushSandboxFiles : Bool
  setupSandbox : Bool
  pid : ℕ
  addToCgroup : Bool
  postStart : Bool
  dump : Bool
  vmStop : Bool
  removeContainers : List Storage → List Storage

/-- Every step succeeds, and there is no interface. -/
def Outcomes.smooth : Outcomes where
  sandboxFound := true
  preStart := true
  interfaces := some []
  workDir := true
  blockDir := true
  placeDisk := fun _ => true
  moveBack := fun _ => true
  validateConfig := true
  patchConfig := true
  memoryBackend := true
  launch := true
  api := true
  agentReady := true
  connect := some 1
  hotplug := true
  refreshIdentity := true
  injectTask := true
  pushSandboxFiles := true
  setupSandbox := true
  pid := 100
  addToCgroup := true
  postStart := true
  dump := true
  vmStop := true
  removeContainers := id

/-- A sandbox that was created and never started. -/
def freshSandbox : Sandbox where
  baseDir := "/run/kuasar/s1"
  netns := "/run/netns/n1"
  virtioBlk := false
  status := .created
  storages := []
  restore := {}
  client := none
  idGenerator := 0
  network := none
  containers := []
  vm := ⟨[], [], []⟩

/-- The steps of `Snapshottable::restore`. -/
inductive VmStep where
  | workDir
  | blockDir
  | disk (storageId : String)
  | validateConfig
  | patchConfig
  | memoryBackend
  | launch
  | api
  | agentReady
  deriving DecidableEq, Repr

/-- The steps of `start_from_snapshot` that can fail, in all layers. -/
inductive RestoreStep where
  | lookup
  | preStart
  | prepareNetwork (e : NetworkError)
  | restoreVm (step : VmStep)
  | initClient
  | hotplugNetwork
  | refreshIdentity
  | warmForkParams
  | injectTask
  | pushSandboxFiles
  | setupSandbox
  | addToCgroup
  | postStart
  | dump
  deriving DecidableEq, Repr

section

variable (o : Outcomes) (src : SnapshotRestoreParams)

/-! ## Disk images -/

/-- What becomes of the disk images of a snapshot. -/
inductive RestoreBlockAction where
  | reflinkCopied
  | plainCopied
  | symlinked
  | movedExclusive
  deriving DecidableEq, Repr

/-- `restore_action`. -/
def restoreAction : RestoreBlockAction :=
  match src.snapshotType with
  | .continuation => .movedExclusive
  | .warmFork =>
    if src.leaseMode = .shared then
      if src.reflinkSupported then .reflinkCopied else .plainCopied
    else .symlinked
  | .environment => .symlinked

def snapshotDiskPath (entry : DiskImageEntry) : String := src.snapshotDir ++ "/" ++ entry.filename

def sandboxDiskPath (baseDir : String) (entry : DiskImageEntry) : String :=
  baseDir ++ "/" ++ entry.storageId ++ ".img"

/-- The move of an image: its original and its current path. -/
def diskMove (baseDir : String) (entry : DiskImageEntry) : String × String :=
  (snapshotDiskPath src entry, sandboxDiskPath baseDir entry)

def placeDisk (move : String × String) (files : Files String File) : Option (Files String File) :=
  if !o.placeDisk move.1 then none
  else
    match restoreAction src with
    | .reflinkCopied => (files move.1).map (files.write move.2)
    | .plainCopied => (files move.1).map (files.write move.2)
    | .symlinked =>
      match files move.2 with
      | some _ => none
      | none => some (files.write move.2 (.link move.1))
    | .movedExclusive => files.rename move.1 move.2

def moveBack (m : Machine) (move : String × String) : Machine × Bool :=
  match if o.moveBack move.1 then m.files.rename move.2 move.1 else none with
  | some files => ({ m with files := files }, true)
  | none => ({ m with movedBack := false }, false)

/-- `rollback_pending_moves`: up to the first that fails. -/
def rollbackPendingMoves (m : Machine) : List (String × String) → Machine
  | [] => m
  | move :: moves =>
    match moveBack o m move with
    | (m, true) => rollbackPendingMoves m moves
    | (m, false) => m

/-- The rollback of a partial move: each error is logged. -/
def rollbackPartialMove (m : Machine) (moves : List (String × String)) : Machine :=
  moves.foldl (fun m move => (moveBack o m move).1) m

/-- The loop of `prepare_restore_block_artifacts`; `pending` are the moves made so far. -/
def placeDisks (m : Machine) (pending : List (String × String)) :
    List DiskImageEntry → Machine × Except VmStep (List (String × String))
  | [] => (m, .ok pending)
  | entry :: entries =>
    let move := diskMove src m.sandbox.baseDir entry
    match placeDisk o src move m.files with
    | none => (rollbackPartialMove o m pending, .error (.disk entry.storageId))
    | some files =>
      placeDisks { m with files := files }
        (if restoreAction src = .movedExclusive then pending ++ [move] else pending) entries

/-- `prepare_restore_block_artifacts`: the moves that a failure has to undo. -/
def prepareRestoreBlockArtifacts (m : Machine) : Machine × Except VmStep (List (String × String)) :=
  if src.diskImages.isEmpty then (m, .ok [])
  else if !o.blockDir then (m, .error .blockDir)
  else placeDisks o src m [] src.diskImages

/-- `Snapshottable::restore`. -/
def vmRestore (m : Machine) : Machine × Option VmStep :=
  if !o.workDir then (m, some .workDir)
  else
    match prepareRestoreBlockArtifacts o src m with
    | (m, .error e) => (m, some e)
    | (m, .ok moves) =>
      if !o.validateConfig then (rollbackPendingMoves o m moves, some .validateConfig)
      else if !o.patchConfig then (rollbackPendingMoves o m moves, some .patchConfig)
      else if !o.memoryBackend then (rollbackPendingMoves o m moves, some .memoryBackend)
      else if !o.launch then (rollbackPendingMoves o m moves, some .launch)
      else if !o.api then (rollbackPendingMoves o m moves, some .api)
      else if !o.agentReady then (rollbackPendingMoves o m moves, some .agentReady)
      else (m, none)

/-! ## The sandbox's restore -/

/-- `remap_restored_storage_artifacts`. -/
def remapRestoredStorageArtifacts (baseDir : String) : List Storage :=
  src.storages.map fun storage =>
    if storage.ownedByRuntime && storage.deviceId.isSome then
      { storage with cleanupPath := some (baseDir ++ "/" ++ storage.id ++ ".img") }
    else storage

/-- `init_client`: connect unless there is a connection. -/
def initClient (sb : Sandbox) : Option Sandbox :=
  match sb.client with
  | some _ => some sb
  | none => o.connect.map fun client => { sb with client := some client }

/-- `hotplug_pending_network`: whatever comes of it, nothing is pending afterwards. -/
def hotplugPendingNetwork (sb : Sandbox) : Sandbox × Bool :=
  ({ sb with vm := { sb.vm with pendingNetHotplug := [] } },
    sb.vm.pendingNetHotplug.isEmpty || o.hotplug)

/-- The arm of `try_restore` for each type of snapshot. -/
def adoptGuest (sb : Sandbox) : Sandbox × Option RestoreStep :=
  match src.snapshotType with
  | .warmFork =>
    match hotplugPendingNetwork o sb with
    | (sb, false) => (sb, some .hotplugNetwork)
    | (sb, true) =>
      let sb := { sb with
        storages := remapRestoredStorageArtifacts src sb.baseDir
        restore := { sb.restore with orphanContainerIds := src.orphanContainerIds } }
      if !o.refreshIdentity then (sb, some .refreshIdentity)
      else if src.warmForkTargets.isNone then (sb, some .warmForkParams)
      else if !o.injectTask then (sb, some .injectTask)
      else (sb, none)
  | .continuation =>
    ({ sb with
        storages := remapRestoredStorageArtifacts src sb.baseDir
        restore := { sb.restore with orphanContainerIds := src.orphanContainerIds } }, none)
  | .environment =>
    match hotplugPendingNetwork o sb with
    | (sb, false) => (sb, some .hotplugNetwork)
    | (sb, true) =>
      if sb.virtioBlk && !o.pushSandboxFiles then (sb, some .pushSandboxFiles)
      else if !o.setupSandbox then (sb, some .setupSandbox)
      else (sb, none)

/-- `try_restore`. -/
def tryRestore (m : Machine) : Machine × Option RestoreStep :=
  match vmRestore o src m with
  | (m, some step) => (m, some (.restoreVm step))
  | (m, none) =>
    match initClient o m.sandbox with
    | none => (m, some .initClient)
    | some sb =>
      match adoptGuest o src sb with
      | (sb, some step) => ({ m with sandbox := sb }, some step)
      | (sb, none) => ({ m with sandbox := { sb with status := .running o.pid } }, none)

/-! ## The sandboxer's start -/

/-- `clear_template_restore_state`. -/
def Sandbox.clearTemplateRestoreState (sb : Sandbox) : Sandbox := { sb with restore := {} }

/-- `destroy_network`. -/
def Sandbox.destroyNetwork (sb : Sandbox) : Sandbox := { sb with network := none }

/-- `stop`, forced: the containers are removed and the VM killed. The status is left to
the monitor. -/
def Sandbox.stop (sb : Sandbox) : Sandbox × Bool :=
  match sb.status with
  | .stopped => (sb.destroyNetwork, true)
  | .paused => (sb, false)
  | _ =>
    let sb := { sb with
      storages := if sb.containers.isEmpty then sb.storages else o.removeContainers sb.storages
      containers := [] }
    if o.vmStop then (sb.destroyNetwork, true) else (sb, false)

/-- `prepare_network`. -/
def prepareNetwork (sb : Sandbox) : Sandbox × Option NetworkError :=
  match o.interfaces with
  | none => (sb, some .discover)
  | some is =>
    match attachNetwork sb.vm is with
    | (vm, some e) => ({ sb with vm := vm }, some e)
    | (vm, none) => ({ sb with vm := vm, network := some is }, none)

/-- The network of a sandbox is prepared unless it has no namespace or brings its own
identity with it. -/
def prepareStep (sb : Sandbox) : Sandbox × Option NetworkError :=
  if sb.netns ≠ "" ∧ src.snapshotType ≠ .continuation then prepareNetwork o sb else (sb, none)

/-- The record of a restore from `src`. -/
def record (sb : Sandbox) : RestoreMetadata where
  templateId := src.templateId
  templateSnapshotType := some src.snapshotType
  leaseMode := some src.leaseMode
  reflinkSupported := some src.reflinkSupported
  memoryRestoreMode := some src.memoryRestoreMode
  orphanContainerIds := sb.restore.orphanContainerIds

/-- `rollback_post_restore`. -/
def rollbackPostRestore (sb : Sandbox) : Sandbox :=
  match sb.clearTemplateRestoreState.stop o with
  | (sb, false) => sb
  | (sb, true) => sb.destroyNetwork

/-- The end of a start whose VM runs. -/
def finishStart (sb : Sandbox) : Sandbox × Option RestoreStep :=
  let sb := { sb with idGenerator := src.idGenerator }
  if !o.addToCgroup then (rollbackPostRestore o sb, some .addToCgroup)
  else if !o.postStart then (rollbackPostRestore o sb, some .postStart)
  else if !o.dump then (rollbackPostRestore o sb, some .dump)
  else (sb, none)

/-- `start_from_snapshot`. -/
def startFromSnapshot (m : Machine) : Machine × Option RestoreStep :=
  if !o.sandboxFound then (m, some .lookup)
  else if !o.preStart then (m, some .preStart)
  else
    match prepareStep o src m.sandbox with
    | (sb, some e) => ({ m with sandbox := sb.destroyNetwork }, some (.prepareNetwork e))
    | (sb, none) =>
      match tryRestore o src { m with sandbox := { sb with restore := record src sb } } with
      | (m, some step) =>
        ({ m with sandbox := m.sandbox.clearTemplateRestoreState.destroyNetwork }, some step)
      | (m, none) =>
        match finishStart o src m.sandbox with
        | (sb, step) => ({ m with sandbox := sb }, step)

end

/-! ## The VM's restore leaves the sandbox alone -/

variable {o : Outcomes} {src : SnapshotRestoreParams}

theorem moveBack_sandbox (m : Machine) (move : String × String) :
    (moveBack o m move).1.sandbox = m.sandbox := by
  unfold moveBack
  split <;> rfl

theorem rollbackPendingMoves_sandbox (m : Machine) (moves : List (String × String)) :
    (rollbackPendingMoves o m moves).sandbox = m.sandbox := by
  induction moves generalizing m with
  | nil => rfl
  | cons move moves ih =>
    have hback := moveBack_sandbox (o := o) m move
    unfold rollbackPendingMoves
    rcases hm : moveBack o m move with ⟨m', _ | _⟩ <;> rw [hm] at hback
    · exact hback
    · exact (ih m').trans hback

theorem rollbackPartialMove_sandbox (m : Machine) (moves : List (String × String)) :
    (rollbackPartialMove o m moves).sandbox = m.sandbox := by
  unfold rollbackPartialMove
  induction moves generalizing m with
  | nil => rfl
  | cons move moves ih => rw [List.foldl_cons, ih, moveBack_sandbox]

theorem placeDisks_sandbox (m : Machine) (pending : List (String × String))
    (entries : List DiskImageEntry) :
    (placeDisks o src m pending entries).1.sandbox = m.sandbox := by
  induction entries generalizing m pending with
  | nil => rfl
  | cons entry entries ih =>
    simp only [placeDisks]
    split
    · exact rollbackPartialMove_sandbox m pending
    · exact ih _ _

theorem prepareRestoreBlockArtifacts_sandbox (m : Machine) :
    (prepareRestoreBlockArtifacts o src m).1.sandbox = m.sandbox := by
  unfold prepareRestoreBlockArtifacts
  split
  · rfl
  split
  · rfl
  · exact placeDisks_sandbox m [] src.diskImages

theorem vmRestore_sandbox (m : Machine) : (vmRestore o src m).1.sandbox = m.sandbox := by
  have hblocks : (prepareRestoreBlockArtifacts o src m).1.sandbox = m.sandbox :=
    prepareRestoreBlockArtifacts_sandbox m
  unfold vmRestore
  split
  · rfl
  rcases hm : prepareRestoreBlockArtifacts o src m with ⟨m', e | moves⟩ <;> rw [hm] at hblocks
  · exact hblocks
  · simp only
    repeat' split
    all_goals first | exact hblocks | exact (rollbackPendingMoves_sandbox m' moves).trans hblocks

/-! ## How far a call came -/

def RestoreStep.afterVm : RestoreStep → Bool
  | .lookup => false
  | .preStart => false
  | .prepareNetwork _ => false
  | .restoreVm _ => false
  | _ => true

def pastVm (r : Option RestoreStep) : Bool := r.elim true RestoreStep.afterVm

theorem adoptGuest_afterVm {sb sb' : Sandbox} {step : RestoreStep}
    (h : adoptGuest o src sb = (sb', some step)) : step.afterVm = true := by
  unfold adoptGuest at h
  repeat' split at h
  all_goals first | (cases h; rfl) | simp at h

theorem finishStart_pastVm (sb : Sandbox) : pastVm (finishStart o src sb).2 = true := by
  unfold finishStart
  repeat' split
  all_goals rfl

end Kuasar.Restore

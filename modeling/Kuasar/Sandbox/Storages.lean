import Mathlib.Data.Finmap
import Kuasar.Data.FirstMatch
import Kuasar.Template.Types

/-!
# Sandbox.Storages — the storages of a sandbox and the containers that use them

A mount of a container is served by a storage of its sandbox: a directory bound or mounted on
the host, a file pushed into the guest, or a block device plugged into the VM. Storages are
shared. Each counts the references of the containers that use it and is detached when the last
one is gone.

Two searches decide which storage a mount means. `attachStorage` looks for one to reuse by its
source identity (`storageMatchesMount`); the release of a mount (`deferenceStorage`) and the
rewriting of a container's spec look for one by source and type (`isForMount`).

After a restore the storages are those of the template, referred to by containers that still
run in the guest but that the sandbox does not know, its orphans. A new container whose mount
means a storage of an orphan takes the orphan over (`callAdoptContainer`).

All functions are functions of the sandbox and of what the host, the VM and the guest answer.
-/

namespace Kuasar.Storages

open FirstMatch

/-! ## Mounts and storages -/

structure Mount where
  destination : String
  type : String
  source : String
  options : List String := []
  deriving DecidableEq, Repr

/-- A storage of a sandbox. `refContainer` are the references of the containers, a container
as often as it refers to the storage. -/
structure Storage extends Kuasar.Storage where
  hostSource : String
  type : String
  refContainer : Multiset String
  needGuestHandle : Bool
  source : String
  driver : String
  driverOptions : List String
  fstype : String
  options : List String
  mountPoint : String
  lowerDirs : Option String
  sourceIdentity : Option String
  deriving DecidableEq

namespace Storage

/-- `is_for_mount`. -/
def isForMount (x : Storage) (m : Mount) : Bool := x.hostSource = m.source && x.type = m.type

/-- `ref_count`. -/
def refCount (x : Storage) : ℕ := x.refContainer.card

/-- `refer`. -/
def refer (c : String) (x : Storage) : Storage := { x with refContainer := c ::ₘ x.refContainer }

/-- `defer`: all references of the container go. -/
def defer (c : String) (x : Storage) : Storage :=
  { x with refContainer := x.refContainer.filter (· ≠ c) }

end Storage

def containsText (pat s : String) : Bool := s.toList.tails.any (pat.toList.isPrefixOf ·)

/-- What `trim_start_matches` leaves of a text, in at most `n` rounds. -/
def trimStartMatches (pat : List Char) : ℕ → List Char → List Char
  | 0, cs => cs
  | n + 1, cs => if pat.isPrefixOf cs then trimStartMatches pat n (cs.drop pat.length) else cs

/-- The value of the first option that starts with `key`. -/
def extractOption (key : String) (options : List String) : Option String :=
  (options.find? fun o => key.toList.isPrefixOf o.toList).map fun o =>
    String.ofList (trimStartMatches key.toList o.length o.toList)

/-- `extract_lower_dirs`. -/
def extractLowerDirs (options : List String) : Option String := extractOption "lowerdir=" options

namespace Mount

/-- The directory that an overlay writes to. -/
def upperDir (m : Mount) : Option String := extractOption "upperdir=" m.options

/-- `is_bind`. -/
def isBind (m : Mount) : Bool := m.type = "bind" && m.source ≠ ""

/-- `is_bind_shm`. -/
def isBindShm (m : Mount) : Bool := m.isBind && m.destination = "/dev/shm"

/-- `is_overlay`. -/
def isOverlay (m : Mount) : Bool := m.type = "overlay"

/-- The options of a storage for the mount: of the mount's options only `ro` is kept. -/
def storageOptions (m : Mount) : List String := if "ro" ∈ m.options then ["ro"] else []

/-- `source_identity_for_mount`. -/
def sourceIdentity (m : Mount) : Option String :=
  match extractLowerDirs m.options with
  | some lowerDirs => some ("overlay:" ++ lowerDirs)
  | none => if m.source ≠ "" then some (m.type ++ ":" ++ m.source) else none

end Mount

/-- `storage_matches_mount`. -/
def storageMatchesMount (x : Storage) (m : Mount) (isRootfsMount : Bool) : Bool :=
  match x.sourceIdentity, m.sourceIdentity with
  | some identity, some required => identity = required && x.type = m.type
  | _, _ =>
    if !isRootfsMount && x.isForMount m then true
    else
      match x.lowerDirs, extractLowerDirs m.options with
      | some lower, some required => lower = required && x.type = m.type
      | _, _ => false

/-- `find_orphan_for_mount`: the first storage for the mount that an orphan refers to. Which of
its orphans is found is up to the order of a hash map, here `choice`. -/
def findOrphanForMount (storages : List Storage) (orphans : List String) (m : Mount)
    (isRootfsMount : Bool) (choice : ℕ) : Option String :=
  match storages.find? fun x =>
      storageMatchesMount x m isRootfsMount && orphans.any (· ∈ x.refContainer) with
  | none => none
  | some x =>
    let found := orphans.filter (· ∈ x.refContainer)
    found[choice % found.length]?

/-! ## The sandbox -/

/-- The rewritten spec of a container, as far as its storages go; `storages` is the annotation
with the storages that the guest has to mount. -/
structure Spec where
  mounts : List Mount
  root : Option String
  storages : List Storage := []
  deriving DecidableEq

/-- The pipes of a container. -/
structure Io where
  stdin : String
  stdout : String
  stderr : String
  terminal : Bool := false
  deriving DecidableEq, Repr

/-- A container of a sandbox. Kept for the proofs: the ids of the storages that the sources of
its mounts name (`sources`), and the storage that was found for each mount of its root file
system (`roots`). -/
structure Container where
  rootfs : List Mount
  spec : Option Spec
  io : Option Io
  ioDevices : List String := []
  sources : List String := []
  roots : List (Mount × String) := []
  deriving DecidableEq

/-- The process of an orphan, kept for the container that takes it over. -/
structure AdoptionInfo where
  orphanPid : ℕ
  orphanContainerId : String
  deriving DecidableEq, Repr

/-- The guest: the processes of its containers and the adoptions that wait for the creation of
their container. Kept for the proofs: the adoptions that a creation consumed. -/
structure Guest where
  containers : Finmap fun _ : String => ℕ
  pendingAdoptions : Finmap fun _ : String => AdoptionInfo
  consumed : List (String × String) := []

structure StoragePolicy where
  virtioBlk : Bool := false
  smallDirMaxFiles : ℕ := 0
  smallDirMaxBytes : ℕ := 0
  allowLargeBindMount : Bool := false
  enableReflinkCow : Bool := false
  deriving DecidableEq, Repr

/-- A sandbox, as far as its storages go. `client` says whether there is a connection to the
guest, `devices` are the ids of the devices plugged into the VM. Kept for the proofs: the
orphans taken over so far, each with its new container. -/
structure Sandbox where
  baseDir : String := ""
  policy : StoragePolicy := {}
  leaseMode : Option TemplateLeaseMode := none
  client : Bool := true
  idGenerator : ℕ := 0
  storages : List Storage := []
  containers : Finmap fun _ : String => Container
  orphanContainerIds : List String := []
  devices : Finset String := ∅
  guest : Guest
  adoptions : List (String × String) := []

namespace Sandbox

/-- `increment_and_get_id`: the id is the new value of the counter, which is a `u32`. -/
def incrementId (s : Sandbox) : Sandbox :=
  { s with idGenerator := (s.idGenerator + 1) % 2 ^ 32 }

def storageId (n : ℕ) : String := "storage" ++ toString n

def blockId (n : ℕ) : String := "blk" ++ toString n

def serialId (n : ℕ) : String := "virtioserial" ++ toString n

/-- `hot_attach`, with the answer of the VM. It has no two devices of one id. -/
def hotAttach {α : Type} (s : Sandbox) (id : String) (answer : Option α) : Option (Sandbox × α) :=
  match answer with
  | none => none
  | some a => if id ∈ s.devices then none else some ({ s with devices := insert id s.devices }, a)

/-- A new storage. -/
def push (s : Sandbox) (x : Storage) : Sandbox := { s with storages := s.storages ++ [x] }

end Sandbox

/-! ## Attaching a storage -/

/-- The buses of a block device. -/
inductive BusType where
  | pci
  | pcie
  | ccw
  | scsi
  | mmio
  | serial
  | null
  deriving DecidableEq, Repr

/-- `from_bus_type` and `to_driver_string`. -/
def BusType.driver : BusType → String
  | .scsi => "scsi"
  | .mmio => "mmioblk"
  | _ => "blk"

structure MountInfo where
  mountPoint : String
  fsType : String
  options : List String
  deriving DecidableEq, Repr

/-- What lies at a path of the host, links not followed. -/
inductive FileType where
  | symlink
  | file
  | dir
  | other
  deriving DecidableEq, Repr

/-- The size of a directory of the host. -/
structure ScannedDir where
  fileCount : ℕ
  totalBytes : ℕ
  deriving DecidableEq, Repr

/-- What the host, the VM and the guest answer while a storage is attached. `mountInfo`,
`fileType`, `isRegular`, `scan` and `fstype` are what is found at the source of the mount, if it
can be looked at; `read` says whether its content can be read, `place` whether it can be put in
place (a directory mounted, an image prepared), `push` whether it can be pushed into the guest;
`adoptDelivered` and `adoptAnswered` are the two ways of the call that takes an orphan over. -/
structure Host where
  orphanChoice : ℕ := 0
  adoptDelivered : Bool := true
  adoptAnswered : Bool := true
  blockDevice : Bool := false
  mountInfo : Option (Option MountInfo) := some none
  isDir : Bool := true
  isRegular : Option Bool := some true
  fileType : Option FileType := some .dir
  scan : Option ScannedDir := none
  read : Bool := true
  place : Bool := true
  push : Bool := true
  hotAttach : Option (BusType × String) := some (.pci, "")
  fstype : Option String := some "ext4"

inductive AttachError where
  | adopt (orphan : String)
  | emptySource
  | hotAttach
  | fstype
  | mountInfo
  | stat
  | notRegular
  | place
  | symlink
  | rootfsGuestFile
  | read
  | noClient
  | push
  | scan
  | largeBindMount
  | unsupportedFileType
  deriving DecidableEq, Repr

/-- `adopt_container` of the guest: the orphan's process is kept for the new container. -/
def Guest.adoptContainer (g : Guest) (oldId newId : String) : Option Guest :=
  (g.containers.lookup oldId).map fun pid =>
    { g with
      containers := g.containers.erase oldId
      pendingAdoptions := g.pendingAdoptions.insert newId ⟨pid, oldId⟩ }

/-- `call_adopt_container`. -/
def callAdoptContainer (h : Host) (oldId newId : String) (s : Sandbox) : Sandbox × Bool :=
  if !s.client || !h.adoptDelivered then (s, false)
  else
    match s.guest.adoptContainer oldId newId with
    | none => (s, false)
    | some g => ({ s with guest := g }, h.adoptAnswered)

section Handlers

variable (h : Host) (id c : String) (m : Mount) (isRootfsMount : Bool)

/-- Where storages that are shared with the guest are mounted there. -/
def kuasarStateDir : String := "/run/kuasar/state"

/-- Where storages that the guest mounts itself are mounted there. -/
def kuasarGuestShareDir : String := "/run/kuasar/storage/containers/"

/-- `DRIVER_GUEST_FILE`. -/
def driverGuestFile : String := "guest-file"

/-- The storage of a directory or a file that is bound or mounted on the host. -/
def hostStorage (lowerDirs sourceIdentity : Option String) : Storage where
  hostSource := m.source
  type := m.type
  id := id
  deviceId := none
  refContainer := {c}
  needGuestHandle := false
  source := ""
  driver := ""
  driverOptions := []
  fstype := "bind"
  options := m.storageOptions
  mountPoint := kuasarStateDir ++ "/" ++ id
  lowerDirs := lowerDirs
  cleanupPath := none
  ownedByRuntime := false
  sourceIdentity := sourceIdentity

/-- The storage of a file or a small directory that was pushed into the guest. -/
def guestFileStorage : Storage :=
  { hostStorage id c m none (some ("bind:" ++ m.source)) with driver := driverGuestFile }

def blockStorage (deviceId : String) (bus : BusType) (addr fstype : String)
    (cleanupPath lowerDirs sourceIdentity : Option String) : Storage where
  hostSource := m.source
  type := m.type
  id := id
  deviceId := some deviceId
  refContainer := {c}
  needGuestHandle := true
  source := addr
  driver := bus.driver
  driverOptions := []
  fstype := fstype
  options := m.storageOptions
  mountPoint := kuasarGuestShareDir ++ id
  lowerDirs := lowerDirs
  cleanupPath := cleanupPath
  ownedByRuntime := cleanupPath.isSome
  sourceIdentity := sourceIdentity

/-- `is_propagation_option`. -/
def isPropagationOption (o : String) : Bool :=
  o ∈ ["shared", "rshared", "slave", "rslave", "private", "rprivate", "unbindable", "runbindable"]

/-- The storage of a tmpfs, which the guest mounts; of the options of the host's mount it keeps
the size and the propagation. -/
def tmpfsStorage (info : MountInfo) : Storage where
  hostSource := m.source
  type := m.type
  id := id
  deviceId := none
  refContainer := {c}
  needGuestHandle := true
  source := "tmpfs"
  driver := "ephemeral"
  driverOptions := []
  fstype := "tmpfs"
  options := m.storageOptions ++ info.options.filter fun o =>
    "size=".toList.isPrefixOf o.toList || isPropagationOption o
  mountPoint := kuasarGuestShareDir ++ id
  lowerDirs := none
  cleanupPath := none
  ownedByRuntime := false
  sourceIdentity := some ("tmpfs:" ++ m.source)

/-- `handle_block_device`. The file system is read after the device was attached. -/
def handleBlockDevice (s : Sandbox) : Sandbox × Option AttachError :=
  if m.source = "" then (s, some .emptySource)
  else
    let s := s.incrementId
    let deviceId := Sandbox.blockId s.idGenerator
    match s.hotAttach deviceId h.hotAttach with
    | none => (s, some .hotAttach)
    | some (s, bus, addr) =>
      match h.fstype with
      | none => (s, some .fstype)
      | some fstype =>
        (s.push (blockStorage id c m deviceId bus addr fstype none none
          (some ("block:" ++ m.source))), none)

/-- `handle_bind_mount`. -/
def handleBindMount (s : Sandbox) : Sandbox × Option AttachError :=
  if m.source = "" then (s, some .emptySource)
  else if !h.isDir && h.isRegular.isNone then (s, some .stat)
  else if !h.isDir && h.isRegular = some false then (s, some .notRegular)
  else if !h.place then (s, some .place)
  else (s.push (hostStorage id c m none (some ("bind:" ++ m.source))), none)

/-- `handle_overlay_mount`. -/
def handleOverlayMount (s : Sandbox) : Sandbox × Option AttachError :=
  if m.source = "" then (s, some .emptySource)
  else if !h.place then (s, some .place)
  else
    let lowerDirs := extractLowerDirs m.options
    (s.push (hostStorage id c m lowerDirs (lowerDirs.map ("overlay:" ++ ·))), none)

def Sandbox.imageFstype (s : Sandbox) : String :=
  if s.leaseMode = some .shared && s.policy.enableReflinkCow then "xfs" else "ext4"

/-- A block image is prepared, and attached in a `BlockAttachTransaction`. -/
def attachImage (lowerDirs sourceIdentity : Option String) (s : Sandbox) :
    Sandbox × Option AttachError :=
  if !h.place then (s, some .place)
  else
    let image := s.baseDir ++ "/" ++ id ++ ".img"
    let s := s.incrementId
    let deviceId := Sandbox.blockId s.idGenerator
    match s.hotAttach deviceId h.hotAttach with
    | none => (s, some .hotAttach)
    | some (s, bus, addr) =>
      (s.push (blockStorage id c m deviceId bus addr s.imageFstype (some image) lowerDirs
        sourceIdentity), none)

/-- `handle_overlay_mount_blk`. -/
def handleOverlayMountBlk (s : Sandbox) : Sandbox × Option AttachError :=
  if m.source = "" then (s, some .emptySource)
  else
    let lowerDirs := extractLowerDirs m.options
    attachImage h id c m lowerDirs (lowerDirs.map ("overlay:" ++ ·)) s

/-- A file or a small directory is pushed into the guest. -/
def pushToGuest (s : Sandbox) : Sandbox × Option AttachError :=
  if !s.client then (s, some .noClient)
  else if !h.push then (s, some .push)
  else (s.push (guestFileStorage id c m), none)

/-- `handle_bind_mount_blk`. -/
def handleBindMountBlk (s : Sandbox) : Sandbox × Option AttachError :=
  if m.source = "" then (s, some .emptySource)
  else
    match h.fileType with
    | none => (s, some .stat)
    | some .symlink => (s, some .symlink)
    | some .file =>
      if isRootfsMount then (s, some .rootfsGuestFile)
      else if !h.read then (s, some .read)
      else pushToGuest h id c m s
    | some .dir =>
      match h.scan with
      | none => (s, some .scan)
      | some scan =>
        if scan.fileCount ≤ s.policy.smallDirMaxFiles &&
            scan.totalBytes ≤ s.policy.smallDirMaxBytes then
          if isRootfsMount then (s, some .rootfsGuestFile) else pushToGuest h id c m s
        else if !s.policy.allowLargeBindMount then (s, some .largeBindMount)
        else attachImage h id c m none (some ("bind:" ++ m.source)) s
    | some .other => (s, some .unsupportedFileType)

def tmpfsVolume (info : MountInfo) : Bool :=
  info.fsType = "tmpfs" && containsText "kubernetes.io~empty-dir" info.mountPoint

/-- The end of `attach_storage`: no storage can be reused. -/
def newStorage (s : Sandbox) : Sandbox × Option AttachError :=
  if h.blockDevice then handleBlockDevice h id c m s
  else
    match if containsText "kubernetes.io~empty-dir" m.source then h.mountInfo else some none with
    | none => (s, some .mountInfo)
    | some info =>
      match info.filter tmpfsVolume with
      | some info => (s.push (tmpfsStorage id c m info), none)
      | none =>
        if m.isBindShm then (s, none)
        else if m.isBind then
          if s.policy.virtioBlk then handleBindMountBlk h id c m isRootfsMount s
          else handleBindMount h id c m s
        else if m.isOverlay then
          if s.policy.virtioBlk then handleOverlayMountBlk h id c m s
          else handleOverlayMount h id c m s
        else (s, none)

/-- `attach_storage`. -/
def attachStorage (s : Sandbox) : Sandbox × Option AttachError :=
  let reusable := fun x => storageMatchesMount x m isRootfsMount
  match findOrphanForMount s.storages s.orphanContainerIds m isRootfsMount h.orphanChoice with
  | some orphan =>
    match callAdoptContainer h orphan c s with
    | (s, false) => (s, some (.adopt orphan))
    | (s, true) =>
      ({ s with
        storages := updateFirst reusable (fun x => (x.defer orphan).refer c) s.storages
        orphanContainerIds := s.orphanContainerIds.filter (· ≠ orphan)
        adoptions := s.adoptions ++ [(orphan, c)] }, none)
  | none =>
    if s.storages.any reusable then
      ({ s with storages := updateFirst reusable (Storage.refer c) s.storages }, none)
    else
      let s := s.incrementId
      newStorage h (Sandbox.storageId s.idGenerator) c m isRootfsMount s

end Handlers

/-! ## Releasing storages -/

/-- Which of the calls that undo an attachment succeed, by the id of the device and of the
storage. -/
structure DetachOutcomes where
  hotDetach : String → Bool := fun _ => true
  unmount : String → Bool := fun _ => true

variable (o : DetachOutcomes)

/-- `detach_storage`. The image of a device can be removed if its path is known. -/
def detachStorage (x : Storage) (s : Sandbox) : Sandbox × Bool :=
  match x.deviceId with
  | some deviceId =>
    if !o.hotDetach deviceId then (s, false)
    else
      ({ s with devices := s.devices.erase deviceId },
        !x.ownedByRuntime || x.cleanupPath.isSome)
  | none =>
    if x.driver = driverGuestFile then (s, true)
    else if x.fstype = "bind" then (s, o.unmount x.id)
    else (s, true)

/-- The loop of `gc_storages`, over the storages to collect. -/
def gcLoop : List Storage → Sandbox → Sandbox × Bool
  | [], s => (s, true)
  | x :: xs, s =>
    match detachStorage o x s with
    | (s, false) => (s, false)
    | (s, true) => gcLoop xs { s with storages := s.storages.filter (·.id ≠ x.id) }

/-- `gc_storages`. -/
def gcStorages (s : Sandbox) : Sandbox × Bool :=
  gcLoop o (s.storages.filter (·.refCount = 0)) s

/-- `deference_storage`. -/
def deferenceStorage (c : String) (m : Mount) (s : Sandbox) : Sandbox × Bool :=
  gcStorages o { s with
    storages := updateFirst (fun x => x.isForMount m && c ∈ x.refContainer) (Storage.defer c)
      s.storages }

/-- `deference_container_storages`. -/
def deferenceContainerStorages (c : String) (s : Sandbox) : Sandbox × Bool :=
  gcStorages o { s with storages := s.storages.map (Storage.defer c) }

/-! ## What attaching a storage can do -/

/-- The source identities that a storage made for the mount can have. -/
def Mount.madeIdentities (m : Mount) : List String :=
  ["block:" ++ m.source, "bind:" ++ m.source, "tmpfs:" ++ m.source] ++
    ((extractLowerDirs m.options).map ("overlay:" ++ ·)).toList

/-- The container that a new storage is made for and its place are those of the mount. -/
structure NewFor (id c : String) (m : Mount) (x : Storage) : Prop where
  id_eq : x.id = id
  isForMount : x.isForMount m = true
  refContainer : x.refContainer = {c}
  releasable : x.ownedByRuntime = true → x.cleanupPath.isSome = true
  identity : (∃ i ∈ m.madeIdentities, x.sourceIdentity = some i) ∨
    (x.sourceIdentity = none ∧ x.lowerDirs = none)

/-- A storage was made for the mount, with or without a block device. -/
def Pushed (id c : String) (m : Mount) (s s' : Sandbox) : Prop :=
  ∃ x, NewFor id c m x ∧
    ((x.deviceId = none ∧ s' = s.push x) ∨
      (x.deviceId = some (Sandbox.blockId s.incrementId.idGenerator) ∧
        Sandbox.blockId s.incrementId.idGenerator ∉ s.devices ∧
        s' = { s.incrementId with
          storages := s.storages ++ [x]
          devices := insert (Sandbox.blockId s.incrementId.idGenerator) s.devices }))

/-- The ways in which making a storage ends: with the storage or, for a mount that needs none,
without; with an error that changed nothing but the counter; or with a device that is attached
and not recorded. -/
inductive Made (id c : String) (m : Mount) (s s' : Sandbox) : Option AttachError → Prop where
  | none (h : s' = s) : Made id c m s s' none
  | pushed (h : Pushed id c m s s') : Made id c m s s' none
  | failed (e : AttachError) (he : e ≠ .fstype) (h : s' = s ∨ s' = s.incrementId) :
      Made id c m s s' (some e)
  | leaked (hnew : Sandbox.blockId s.incrementId.idGenerator ∉ s.devices)
      (h : s' = { s.incrementId with
        devices := insert (Sandbox.blockId s.incrementId.idGenerator) s.devices }) :
      Made id c m s s' (some .fstype)

/-! ### What a handler records -/

/-- The ways in which `attach_storage` can make a storage. -/
inductive Route where
  | block
  | tmpfs
  | bind
  | overlay
  | unneeded
  deriving DecidableEq, Repr

/-- The source of the mount is a tmpfs that backs an empty volume. -/
def onTmpfsVolume (h : Host) (m : Mount) : Bool :=
  containsText "kubernetes.io~empty-dir" m.source &&
    (h.mountInfo.join.filter tmpfsVolume).isSome

/-- The way that the mount takes. -/
def route (h : Host) (m : Mount) : Route :=
  if h.blockDevice then .block
  else if onTmpfsVolume h m then .tmpfs
  else if m.isBindShm then .unneeded
  else if m.isBind then .bind
  else if m.isOverlay then .overlay
  else .unneeded

def Route.identity (m : Mount) : Route → Option String
  | .block => some ("block:" ++ m.source)
  | .tmpfs => some ("tmpfs:" ++ m.source)
  | .bind => some ("bind:" ++ m.source)
  | .overlay => (extractLowerDirs m.options).map ("overlay:" ++ ·)
  | .unneeded => none

def Route.lowerDirs (m : Mount) : Route → Option String
  | .overlay => extractLowerDirs m.options
  | _ => none

def Storage.ReadOnly (x : Storage) : Prop := "ro" ∈ x.options

def Mount.ReadOnly (m : Mount) : Prop := "ro" ∈ m.options

instance (m : Mount) : Decidable m.ReadOnly := inferInstanceAs (Decidable ("ro" ∈ m.options))

/-- The storage of a mount, with an identity and lower directories. -/
structure Recorded (identity lowerDirs : Option String) (m : Mount) (x : Storage) : Prop where
  source : m.source ≠ ""
  hostSource : x.hostSource = m.source
  type : x.type = m.type
  identity : x.sourceIdentity = identity
  lowerDirs : x.lowerDirs = lowerDirs
  readOnly : x.ReadOnly ↔ m.ReadOnly

/-- The storage of a mount, as it is recorded on the way that the mount takes. -/
structure RecordedFor (h : Host) (m : Mount) (x : Storage) : Prop extends
    Recorded ((route h m).identity m) ((route h m).lowerDirs m) m x where
  needed : route h m ≠ .unneeded

/-- The storages are as before, or one that meets a condition is new. -/
def Appends (P : Storage → Prop) (s s' : Sandbox) : Prop :=
  s'.storages = s.storages ∨ ∃ x, P x ∧ s'.storages = s.storages ++ [x]

/-- Making a storage ends in one of these ways, and a new storage meets a condition. -/
def Makes (P : Storage → Prop) (id c : String) (m : Mount) (s s' : Sandbox)
    (e : Option AttachError) : Prop :=
  Made id c m s s' e ∧ Appends P s s'

/-- A storage made for the mount can have this identity with these lower directories. -/
def Mount.CanHave (m : Mount) (identity lowerDirs : Option String) : Prop :=
  (∃ i ∈ m.madeIdentities, identity = some i) ∨ (identity = none ∧ lowerDirs = none)

/-- A storage that is made for the mount, with an identity and lower directories. -/
def Built (id c : String) (m : Mount) (lowerDirs identity : Option String) (x : Storage) : Prop :=
  NewFor id c m x ∧ Recorded identity lowerDirs m x

variable {P : Storage → Prop} {h : Host} {o : DetachOutcomes} {id c : String} {m : Mount}
  {isRootfsMount : Bool} {s s' : Sandbox} {e : Option AttachError}
  {lowerDirs identity : Option String} {x : Storage} {xs : List Storage} {orphan : String}
  {ok : Bool}

theorem hotAttach_eq_some {α : Type} {d : String} {answer : Option α} {a : α}
    (hs : s.hotAttach d answer = some (s', a)) :
    d ∉ s.devices ∧ s' = { s with devices := insert d s.devices } := by
  unfold Sandbox.hotAttach at hs
  split at hs
  · cases hs
  · split at hs
    · cases hs
    · rename_i hd
      cases hs
      exact ⟨hd, rfl⟩

theorem bind_identity (m : Mount) : m.CanHave (some ("bind:" ++ m.source)) none :=
  .inl ⟨_, by simp [Mount.madeIdentities], rfl⟩

theorem overlay_identity (m : Mount) : m.CanHave
    ((extractLowerDirs m.options).map ("overlay:" ++ ·)) (extractLowerDirs m.options) := by
  rcases h : extractLowerDirs m.options with _ | lower
  · exact .inr ⟨rfl, rfl⟩
  · exact .inl ⟨"overlay:" ++ lower, by simp [Mount.madeIdentities, h], rfl⟩

theorem readOnly_storageOptions : "ro" ∈ m.storageOptions ↔ m.ReadOnly := by
  unfold Mount.storageOptions Mount.ReadOnly
  split
  · rename_i hro
    simp [hro]
  · rename_i hro
    simp [hro]

section Built

variable (hid : m.CanHave identity lowerDirs) (hsource : m.source ≠ "")

include hid hsource

theorem built_host : Built id c m lowerDirs identity (hostStorage id c m lowerDirs identity) :=
  ⟨⟨rfl, by simp [Storage.isForMount, hostStorage], rfl, by simp [hostStorage], hid⟩,
    ⟨hsource, rfl, rfl, rfl, rfl, readOnly_storageOptions⟩⟩

theorem built_guestFile : Built id c m lowerDirs identity
    { hostStorage id c m lowerDirs identity with driver := driverGuestFile } :=
  ⟨{ (@built_host id c m lowerDirs identity hid hsource).1 with },
    { (@built_host id c m lowerDirs identity hid hsource).2 with }⟩

theorem built_block (deviceId : String) (bus : BusType) (addr fstype : String)
    (cleanupPath : Option String) : Built id c m lowerDirs identity
      (blockStorage id c m deviceId bus addr fstype cleanupPath lowerDirs identity) :=
  ⟨⟨rfl, by simp [Storage.isForMount, blockStorage], rfl, by simp [blockStorage], hid⟩,
    ⟨hsource, rfl, rfl, rfl, rfl, readOnly_storageOptions⟩⟩

end Built

theorem newFor_tmpfsStorage (info : MountInfo) : NewFor id c m (tmpfsStorage id c m info) where
  id_eq := rfl
  isForMount := by simp [Storage.isForMount, tmpfsStorage]
  refContainer := rfl
  releasable := by simp [tmpfsStorage]
  identity := .inl ⟨_, by simp [Mount.madeIdentities], rfl⟩

/-- Of the options of the host's mount none is `ro`. -/
theorem recorded_tmpfsStorage (info : MountInfo) (hsource : m.source ≠ "") :
    Recorded (some ("tmpfs:" ++ m.source)) none m (tmpfsStorage id c m info) where
  source := hsource
  hostSource := rfl
  type := rfl
  identity := rfl
  lowerDirs := rfl
  readOnly := by
    have hnot : "ro" ∉ info.options.filter fun o =>
        "size=".toList.isPrefixOf o.toList || isPropagationOption o := by
      intro hmem
      exact absurd (List.mem_filter.mp hmem).2 (by decide)
    unfold Storage.ReadOnly tmpfsStorage
    rw [List.mem_append, or_iff_left hnot]
    exact readOnly_storageOptions

/-- An error that changed nothing. -/
theorem makes_failed {e : AttachError} (he : e ≠ .fstype) : Makes P id c m s s (some e) :=
  ⟨.failed e he (.inl rfl), .inl rfl⟩

/-- A mount that needs no storage. -/
theorem makes_none : Makes P id c m s s none := ⟨.none rfl, .inl rfl⟩

/-- A storage without a device. -/
theorem makes_push (hx : Built id c m lowerDirs identity x) (hd : x.deviceId = none) :
    Makes (Recorded identity lowerDirs m) id c m s (s.push x) none :=
  ⟨.pushed ⟨x, hx.1, .inl ⟨hd, rfl⟩⟩, .inr ⟨x, hx.2, rfl⟩⟩

/-- A storage with its device. -/
theorem makes_attach (hx : Built id c m lowerDirs identity x)
    (hd : x.deviceId = some (Sandbox.blockId s.incrementId.idGenerator))
    (hnew : Sandbox.blockId s.incrementId.idGenerator ∉ s.devices) :
    Makes (Recorded identity lowerDirs m) id c m s ({ s.incrementId with
      devices := insert (Sandbox.blockId s.incrementId.idGenerator) s.devices }.push x) none :=
  ⟨.pushed ⟨x, hx.1, .inr ⟨hd, hnew, rfl⟩⟩, .inr ⟨x, hx.2, rfl⟩⟩

theorem makes_blockDevice : Makes (Recorded (some ("block:" ++ m.source)) none m) id c m s
    (handleBlockDevice h id c m s).1 (handleBlockDevice h id c m s).2 := by
  unfold handleBlockDevice
  split
  · exact makes_failed (by simp)
  · rename_i hsource
    dsimp only
    split
    · exact ⟨.failed _ (by simp) (.inr rfl), .inl rfl⟩
    · rename_i s' bus addr hattach
      obtain ⟨hnew, rfl⟩ := hotAttach_eq_some hattach
      split
      · exact ⟨.leaked hnew rfl, .inl rfl⟩
      · have hid : m.CanHave (some ("block:" ++ m.source)) none :=
          .inl ⟨_, by simp [Mount.madeIdentities], rfl⟩
        exact makes_attach (built_block hid hsource ..) rfl hnew

theorem makes_attachImage (hid : m.CanHave identity lowerDirs) (hsource : m.source ≠ "") :
    Makes (Recorded identity lowerDirs m) id c m s (attachImage h id c m lowerDirs identity s).1
      (attachImage h id c m lowerDirs identity s).2 := by
  unfold attachImage
  split
  · exact makes_failed (by simp)
  · dsimp only
    split
    · exact ⟨.failed _ (by simp) (.inr rfl), .inl rfl⟩
    · rename_i s' bus addr hattach
      obtain ⟨hnew, rfl⟩ := hotAttach_eq_some hattach
      exact makes_attach (built_block hid hsource ..) rfl hnew

theorem makes_bindMount : Makes (Recorded (some ("bind:" ++ m.source)) none m) id c m s
    (handleBindMount h id c m s).1 (handleBindMount h id c m s).2 := by
  unfold handleBindMount
  split
  · exact makes_failed (by simp)
  rename_i hsource
  split
  · exact makes_failed (by simp)
  split
  · exact makes_failed (by simp)
  split
  · exact makes_failed (by simp)
  · exact makes_push (built_host (bind_identity m) hsource) rfl

theorem makes_overlayMount :
    Makes (Recorded ((extractLowerDirs m.options).map ("overlay:" ++ ·))
      (extractLowerDirs m.options) m) id c m s
      (handleOverlayMount h id c m s).1 (handleOverlayMount h id c m s).2 := by
  unfold handleOverlayMount
  split
  · exact makes_failed (by simp)
  rename_i hsource
  split
  · exact makes_failed (by simp)
  · exact makes_push (built_host (overlay_identity m) hsource) rfl

theorem makes_overlayMountBlk :
    Makes (Recorded ((extractLowerDirs m.options).map ("overlay:" ++ ·))
      (extractLowerDirs m.options) m) id c m s
      (handleOverlayMountBlk h id c m s).1 (handleOverlayMountBlk h id c m s).2 := by
  unfold handleOverlayMountBlk
  split
  · exact makes_failed (by simp)
  · rename_i hsource
    exact makes_attachImage (overlay_identity m) hsource

theorem makes_pushToGuest (hsource : m.source ≠ "") :
    Makes (Recorded (some ("bind:" ++ m.source)) none m) id c m s
      (pushToGuest h id c m s).1 (pushToGuest h id c m s).2 := by
  unfold pushToGuest
  split
  · exact makes_failed (by simp)
  split
  · exact makes_failed (by simp)
  · exact makes_push (built_guestFile (bind_identity m) hsource) rfl

theorem makes_bindMountBlk : Makes (Recorded (some ("bind:" ++ m.source)) none m) id c m s
    (handleBindMountBlk h id c m isRootfsMount s).1
    (handleBindMountBlk h id c m isRootfsMount s).2 := by
  unfold handleBindMountBlk
  split
  · exact makes_failed (by simp)
  rename_i hsource
  split
  · exact makes_failed (by simp)
  · exact makes_failed (by simp)
  · -- a file
    split
    · exact makes_failed (by simp)
    split
    · exact makes_failed (by simp)
    · exact makes_pushToGuest hsource
  · -- a directory
    split
    · exact makes_failed (by simp)
    split
    · split
      · exact makes_failed (by simp)
      · exact makes_pushToGuest hsource
    split
    · exact makes_failed (by simp)
    · exact makes_attachImage (bind_identity m) hsource
  · exact makes_failed (by simp)

theorem Makes.recordedFor {ρ : Route} (hroute : route h m = ρ) (hneeded : ρ ≠ .unneeded)
    (hmakes : Makes (Recorded (ρ.identity m) (ρ.lowerDirs m) m) id c m s s' e) :
    Makes (RecordedFor h m) id c m s s' e := by
  obtain ⟨hmade, hsame | ⟨x, hx, hnew⟩⟩ := hmakes
  · exact ⟨hmade, .inl hsame⟩
  · refine ⟨hmade, .inr ⟨x, ⟨?_, ?_⟩, hnew⟩⟩
    · rw [hroute]
      exact hx
    · rw [hroute]
      exact hneeded

/-- What `newStorage` looks up is a tmpfs volume exactly if the source is on one. -/
theorem onTmpfsVolume_of_lookup {info : Option MountInfo}
    (hlookup : (if containsText "kubernetes.io~empty-dir" m.source then h.mountInfo
      else some none) = some info) :
    onTmpfsVolume h m = (info.filter tmpfsVolume).isSome := by
  unfold onTmpfsVolume
  split at hlookup
  · rename_i htext
    rw [htext, hlookup]
    rfl
  · rename_i htext
    rw [Bool.not_eq_true] at htext
    cases hlookup
    rw [htext]
    rfl

theorem source_ne_of_onTmpfsVolume (hvolume : onTmpfsVolume h m = true) : m.source ≠ "" := by
  intro hempty
  rw [onTmpfsVolume, Bool.and_eq_true, hempty] at hvolume
  exact absurd hvolume.1 (by decide)

/-- Whatever the mount, a new storage is made in one of these ways, and recorded for the way that
the mount takes. -/
theorem makes_newStorage : Makes (RecordedFor h m) id c m s (newStorage h id c m isRootfsMount s).1
    (newStorage h id c m isRootfsMount s).2 := by
  unfold newStorage
  split
  · rename_i hblock
    exact .recordedFor (if_pos hblock) Route.noConfusion makes_blockDevice
  rename_i hblock
  split
  · exact makes_failed (by simp)
  rename_i info hlookup
  have hvolume := onTmpfsVolume_of_lookup hlookup
  split
  · rename_i info' hfilter
    rw [hfilter, Option.isSome_some] at hvolume
    have hroute : route h m = .tmpfs := by
      unfold route
      rw [if_neg hblock, if_pos hvolume]
    exact .recordedFor hroute Route.noConfusion (makes_push ⟨newFor_tmpfsStorage info',
      recorded_tmpfsStorage info' (source_ne_of_onTmpfsVolume hvolume)⟩ rfl)
  rename_i hfilter
  rw [hfilter, Option.isSome_none] at hvolume
  have hrest : ¬onTmpfsVolume h m = true := by
    rw [hvolume]
    exact Bool.false_ne_true
  split
  · exact makes_none
  rename_i hshm
  split
  · rename_i hbind
    have hroute : route h m = .bind := by
      unfold route
      rw [if_neg hblock, if_neg hrest, if_neg hshm, if_pos hbind]
    split
    · exact .recordedFor hroute Route.noConfusion makes_bindMountBlk
    · exact .recordedFor hroute Route.noConfusion makes_bindMount
  rename_i hbind
  split
  · rename_i hoverlay
    have hroute : route h m = .overlay := by
      unfold route
      rw [if_neg hblock, if_neg hrest, if_neg hshm, if_neg hbind, if_pos hoverlay]
    split
    · exact .recordedFor hroute Route.noConfusion makes_overlayMountBlk
    · exact .recordedFor hroute Route.noConfusion makes_overlayMount
  · exact makes_none

/-- Making a storage changes nothing but the storages, the devices and the counter. -/
theorem Made.frame (h : Made id c m s s' e) :
    s'.containers = s.containers ∧ s'.orphanContainerIds = s.orphanContainerIds ∧
      s'.adoptions = s.adoptions ∧ s'.guest = s.guest := by
  cases h with
  | none h | leaked hnew h =>
    rw [h]
    exact ⟨rfl, rfl, rfl, rfl⟩
  | pushed h => obtain ⟨x, -, ⟨-, rfl⟩ | ⟨-, -, rfl⟩⟩ := h <;> exact ⟨rfl, rfl, rfl, rfl⟩
  | failed e he h => rcases h with rfl | rfl <;> exact ⟨rfl, rfl, rfl, rfl⟩

/-- The storages that a mount can reuse. -/
abbrev reusable (m : Mount) (isRootfsMount : Bool) (x : Storage) : Bool :=
  storageMatchesMount x m isRootfsMount

theorem isForMount_iff : x.isForMount m = true ↔ x.hostSource = m.source ∧ x.type = m.type := by
  simp [Storage.isForMount]

theorem sourceIdentity_eq_none (hnone : m.sourceIdentity = none) :
    extractLowerDirs m.options = none := by
  unfold Mount.sourceIdentity at hnone
  split at hnone
  · cases hnone
  · assumption

/-- A storage that a mount can reuse has its type, and its source or the identity of what is
mounted. -/
theorem reusable_cases {m₀ m : Mount} (hid : m₀.CanHave x.sourceIdentity x.lowerDirs)
    (hreuse : reusable m isRootfsMount x = true) :
    x.type = m.type ∧
      (x.hostSource = m.source ∨ ∃ i ∈ m₀.madeIdentities, m.sourceIdentity = some i) := by
  unfold reusable storageMatchesMount at hreuse
  split at hreuse
  · -- by identity
    rename_i identity required hidentity hrequired
    rw [Bool.and_eq_true, decide_eq_true_eq, decide_eq_true_eq] at hreuse
    obtain ⟨rfl, htype⟩ := hreuse
    refine ⟨htype, .inr ?_⟩
    rcases hid with ⟨i, hi, heq⟩ | ⟨hnone, -⟩
    · rw [heq] at hidentity
      exact ⟨i, hi, by rw [hrequired, hidentity]⟩
    · rw [hnone] at hidentity
      cases hidentity
  · rename_i hne
    split at hreuse
    · -- by source and type
      rename_i hfor
      rw [Bool.and_eq_true, isForMount_iff] at hfor
      exact ⟨hfor.2.2, .inl hfor.2.1⟩
    · -- by lower directories: then both have an identity
      split at hreuse
      · rename_i lower required hlower hrequired
        rcases hid with ⟨i, -, heq⟩ | ⟨-, hnone⟩
        · cases hm : m.sourceIdentity with
          | none =>
            rw [sourceIdentity_eq_none hm] at hrequired
            cases hrequired
          | some required => exact absurd hm (hne i required heq)
        · rw [hnone] at hlower
          cases hlower
      · cases hreuse

/-- The orphan refers to a storage that the mount can reuse. -/
def Candidate (m : Mount) (isRootfsMount : Bool) (s : Sandbox) (orphan : String) : Prop :=
  orphan ∈ s.orphanContainerIds ∧
    ∃ x ∈ s.storages, reusable m isRootfsMount x = true ∧ orphan ∈ x.refContainer

/-- The ways in which attaching a storage ends: an orphan is taken over, or refuses to; a storage
is reused; or one is made. -/
inductive Attach (c : String) (m : Mount) (isRootfsMount : Bool) (s s' : Sandbox) :
    Option AttachError → Prop where
  | adopted (orphan : String) (g : Guest) (hcand : Candidate m isRootfsMount s orphan)
      (hguest : s.guest.adoptContainer orphan c = some g)
      (h : s' = { s with
        guest := g
        storages := updateFirst (reusable m isRootfsMount) (fun x => (x.defer orphan).refer c)
          s.storages
        orphanContainerIds := s.orphanContainerIds.filter (· ≠ orphan)
        adoptions := s.adoptions ++ [(orphan, c)] }) : Attach c m isRootfsMount s s' none
  | refused (orphan : String) (g : Guest) (hcand : Candidate m isRootfsMount s orphan)
      (hguest : g = s.guest ∨ s.guest.adoptContainer orphan c = some g)
      (h : s' = { s with guest := g }) : Attach c m isRootfsMount s s' (some (.adopt orphan))
  | reused (x : Storage) (hx : s.storages.find? (reusable m isRootfsMount) = some x)
      (hfree : ∀ orphan, ¬ Candidate m isRootfsMount s orphan)
      (h : s' = { s with
        storages := updateFirst (reusable m isRootfsMount) (Storage.refer c) s.storages }) :
      Attach c m isRootfsMount s s' none
  | made (e : Option AttachError) (hnone : s.storages.find? (reusable m isRootfsMount) = none)
      (h : Made (Sandbox.storageId s.incrementId.idGenerator) c m s.incrementId s' e) :
      Attach c m isRootfsMount s s' e

theorem findOrphanForMount_eq_some
    (hfind : findOrphanForMount s.storages s.orphanContainerIds m isRootfsMount h.orphanChoice =
      some orphan) : Candidate m isRootfsMount s orphan := by
  unfold findOrphanForMount at hfind
  split at hfind
  · cases hfind
  · rename_i x hx
    have hmem := List.mem_of_getElem? hfind
    rw [List.mem_filter, decide_eq_true_eq] at hmem
    have hpass := List.find?_some hx
    rw [Bool.and_eq_true] at hpass
    exact ⟨hmem.1, x, List.mem_of_find?_eq_some hx, hpass.1, hmem.2⟩

theorem findOrphanForMount_eq_none
    (hfind : findOrphanForMount s.storages s.orphanContainerIds m isRootfsMount h.orphanChoice =
      none) (orphan : String) : ¬ Candidate m isRootfsMount s orphan := by
  rintro ⟨horphan, x, hx, hmatch, href⟩
  unfold findOrphanForMount at hfind
  split at hfind
  · rename_i hnone
    have := List.find?_eq_none.mp hnone x hx
    rw [Bool.and_eq_true, not_and] at this
    exact this hmatch (List.any_eq_true.mpr ⟨orphan, horphan, by simpa using href⟩)
  · rename_i y hy
    -- the storage found has an orphan, so there is one to choose
    have hpass := List.find?_some hy
    rw [Bool.and_eq_true, List.any_eq_true] at hpass
    obtain ⟨-, k, hk, hky⟩ := hpass
    have hmem : k ∈ s.orphanContainerIds.filter (· ∈ y.refContainer) :=
      List.mem_filter.mpr ⟨hk, hky⟩
    have hpos := List.length_pos_of_mem hmem
    rw [List.getElem?_eq_none_iff] at hfind
    exact absurd (Nat.mod_lt h.orphanChoice hpos) (by omega)

theorem callAdoptContainer_cases (hcall : callAdoptContainer h orphan c s = (s', ok)) :
    ∃ g, s' = { s with guest := g } ∧
      (s.guest.adoptContainer orphan c = some g ∨ ok = false ∧ g = s.guest) := by
  unfold callAdoptContainer at hcall
  split at hcall
  · cases hcall
    exact ⟨s.guest, rfl, .inr ⟨rfl, rfl⟩⟩
  · split at hcall
    · cases hcall
      exact ⟨s.guest, rfl, .inr ⟨rfl, rfl⟩⟩
    · rename_i g hg
      cases hcall
      exact ⟨g, rfl, .inl hg⟩

theorem attachStorage_cases :
    Attach c m isRootfsMount s (attachStorage h c m isRootfsMount s).1
      (attachStorage h c m isRootfsMount s).2 := by
  unfold attachStorage
  dsimp only
  split
  · rename_i orphan hfind
    have hcand := findOrphanForMount_eq_some hfind
    split
    · rename_i hcall
      obtain ⟨g, rfl, hg | ⟨-, hg⟩⟩ := callAdoptContainer_cases hcall
      · exact .refused orphan g hcand (.inr hg) rfl
      · exact .refused orphan g hcand (.inl hg) rfl
    · rename_i hcall
      obtain ⟨g, rfl, hg | ⟨hok, -⟩⟩ := callAdoptContainer_cases hcall
      · exact .adopted orphan g hcand hg rfl
      · cases hok
  · rename_i hfind
    have hfree := findOrphanForMount_eq_none hfind
    split
    · rename_i hany
      have hsome := List.find?_isSome.mpr (List.any_eq_true.mp hany)
      obtain ⟨x, hx⟩ := Option.isSome_iff_exists.mp hsome
      exact .reused x hx hfree rfl
    · rename_i hany
      have hnone : s.storages.find? (reusable m isRootfsMount) = none := by
        rw [List.find?_eq_none]
        intro x hx hmatch
        exact hany (List.any_eq_true.mpr ⟨x, hx, hmatch⟩)
      exact .made _ hnone makes_newStorage.1

/-! ## What the collector does -/

def DetachOutcomes.Succeed (o : DetachOutcomes) : Prop :=
  (∀ id, o.hotDetach id = true) ∧ ∀ id, o.unmount id = true

/-- The path of an image that the runtime owns is known. -/
def Storage.Releasable (x : Storage) : Prop :=
  x.ownedByRuntime = true → x.cleanupPath.isSome = true

def deviceIds (xs : List Storage) : Finset String := (xs.filterMap (·.deviceId)).toFinset

theorem mem_deviceIds {d : String} : d ∈ deviceIds xs ↔ ∃ x ∈ xs, x.deviceId = some d := by
  rw [deviceIds, List.mem_toFinset, List.mem_filterMap]

/-- Nothing changes but the devices. -/
theorem detachStorage_cases (h : detachStorage o x s = (s', ok)) :
    ∃ devices, s' = { s with devices := devices } := by
  unfold detachStorage at h
  split at h
  · split at h <;> cases h <;> exact ⟨_, rfl⟩
  · split at h
    · cases h
      exact ⟨_, rfl⟩
    · split at h <;> cases h <;> exact ⟨_, rfl⟩

theorem detachStorage_eq (ho : o.Succeed) (hx : x.Releasable) :
    detachStorage o x s = ({ s with devices := s.devices \ deviceIds [x] }, true) := by
  unfold detachStorage
  rcases hd : x.deviceId with _ | d
  · simp [ho.2, deviceIds, hd]
  · have howned : (!x.ownedByRuntime || x.cleanupPath.isSome) = true := by
      rcases h : x.ownedByRuntime with _ | _
      · rfl
      · exact hx h
    simp [ho.1, deviceIds, hd, howned, Finset.sdiff_singleton_eq_erase]

/-- The collector drops the storages it detached, which are the first of those it was to. -/
theorem gcLoop_storages :
    ∃ done, (∀ y ∈ done, y ∈ xs) ∧ ((gcLoop o xs s).2 = true → done = xs) ∧
      (gcLoop o xs s).1.storages =
        s.storages.filter (fun y => y.id ∉ done.map fun z : Storage => z.id) := by
  induction xs generalizing s with
  | nil => exact ⟨[], by simp, by simp, by simp [gcLoop]⟩
  | cons x xs ih =>
    rcases hdet : detachStorage o x s with ⟨s', _ | _⟩ <;>
      obtain ⟨devices, rfl⟩ := detachStorage_cases hdet <;> simp only [gcLoop, hdet]
    · exact ⟨[], by simp, by simp, by simp⟩
    · obtain ⟨done, hmem, hok, hst⟩ := @ih { s with
        devices := devices
        storages := s.storages.filter (·.id ≠ x.id) }
      refine ⟨x :: done, ?_, ?_, ?_⟩
      · intro y hy
        rcases List.mem_cons.mp hy with rfl | hy
        · exact List.mem_cons_self
        · exact List.mem_cons_of_mem _ (hmem y hy)
      · intro h
        rw [hok h]
      · rw [hst]
        simp only [List.filter_filter]
        apply List.filter_congr
        intro y _
        rw [Bool.eq_iff_iff]
        simp only [Bool.and_eq_true, decide_eq_true_eq, List.map_cons, List.mem_cons, not_or, ne_eq]
        exact and_comm

/-- Nothing changes but the storages and the devices. -/
theorem gcLoop_fst :
    (gcLoop o xs s).1 = { s with
      storages := (gcLoop o xs s).1.storages
      devices := (gcLoop o xs s).1.devices } := by
  induction xs generalizing s with
  | nil => rfl
  | cons x xs ih =>
    rcases hdet : detachStorage o x s with ⟨s', _ | _⟩ <;>
      obtain ⟨devices, rfl⟩ := detachStorage_cases hdet <;> simp only [gcLoop, hdet]
    rw [ih]

theorem gcLoop_ok (ho : o.Succeed) (hxs : ∀ x ∈ xs, x.Releasable) :
    (gcLoop o xs s).2 = true ∧ (gcLoop o xs s).1.devices = s.devices \ deviceIds xs := by
  induction xs generalizing s with
  | nil => simp [gcLoop, deviceIds]
  | cons x xs ih =>
    have hdet := @detachStorage_eq o s x ho (hxs x List.mem_cons_self)
    simp only [gcLoop, hdet]
    obtain ⟨hok, hdev⟩ := @ih { s with
      devices := s.devices \ deviceIds [x]
      storages := s.storages.filter (·.id ≠ x.id) }
      fun y hy => hxs y (List.mem_cons_of_mem x hy)
    refine ⟨hok, ?_⟩
    have hcons : deviceIds (x :: xs) = deviceIds [x] ∪ deviceIds xs := by
      ext d
      simp [mem_deviceIds]
    rw [hdev, hcons]
    exact sdiff_sdiff_left

theorem gcStorages_fst :
    (gcStorages o s).1 = { s with
      storages := (gcStorages o s).1.storages
      devices := (gcStorages o s).1.devices } :=
  gcLoop_fst

theorem gcStorages_sublist : (gcStorages o s).1.storages.Sublist s.storages := by
  obtain ⟨done, -, -, hst⟩ := @gcLoop_storages o s (s.storages.filter (·.refCount = 0))
  unfold gcStorages
  rw [hst]
  exact List.filter_sublist

theorem refCount_eq_zero : x.refCount = 0 ↔ x.refContainer = 0 := Multiset.card_eq_zero

/-- A collection that was not cut short leaves no storage without a reference. -/
theorem gcStorages_referenced (hok : (gcStorages o s).2 = true) :
    ∀ x ∈ (gcStorages o s).1.storages, x.refContainer ≠ 0 := by
  obtain ⟨done, -, hdone, hst⟩ := @gcLoop_storages o s (s.storages.filter (·.refCount = 0))
  intro x hx hzero
  unfold gcStorages at hok hx
  rw [hst, hdone hok, List.mem_filter, decide_eq_true_eq] at hx
  apply hx.2
  rw [List.mem_map]
  exact ⟨x, List.mem_filter.mpr ⟨hx.1, by simpa [refCount_eq_zero] using hzero⟩, rfl⟩

/-- Of storages with ids of their own, the ones with a reference stay. -/
theorem mem_gcStorages (hnd : (s.storages.map fun y : Storage => y.id).Nodup)
    (hx : x ∈ s.storages) (href : x.refContainer ≠ 0) : x ∈ (gcStorages o s).1.storages := by
  obtain ⟨done, hdone, -, hst⟩ := @gcLoop_storages o s (s.storages.filter (·.refCount = 0))
  unfold gcStorages
  rw [hst, List.mem_filter, decide_eq_true_eq]
  refine ⟨hx, ?_⟩
  intro hmem
  obtain ⟨y, hy, hid⟩ := List.mem_map.mp hmem
  have hy := List.mem_filter.mp (hdone y hy)
  have hyx : y = x := List.inj_on_of_nodup_map hnd hy.1 hx hid
  rw [hyx, decide_eq_true_eq, refCount_eq_zero] at hy
  exact href hy.2

/-- A collection that succeeds: the storages without a reference and their devices go. -/
theorem gcStorages_eq (ho : o.Succeed) (hrel : ∀ x ∈ s.storages, x.Releasable)
    (hnd : (s.storages.map fun y : Storage => y.id).Nodup) :
    gcStorages o s = ({ s with
      storages := s.storages.filter (·.refContainer ≠ 0)
      devices := s.devices \ deviceIds (s.storages.filter (·.refCount = 0)) }, true) := by
  have hrel' : ∀ x ∈ s.storages.filter (·.refCount = 0), x.Releasable := by
    intro x hx
    exact hrel x (List.mem_filter.mp hx).1
  obtain ⟨hok, hdev⟩ := @gcLoop_ok o s _ ho hrel'
  have hst : (gcStorages o s).1.storages = s.storages.filter (·.refContainer ≠ 0) := by
    obtain ⟨done, -, hdone, hst⟩ := @gcLoop_storages o s (s.storages.filter (·.refCount = 0))
    unfold gcStorages
    rw [hst, hdone hok]
    apply List.filter_congr
    intro x hx
    rw [decide_eq_decide]
    constructor
    · intro hmem hzero
      apply hmem
      rw [List.mem_map]
      exact ⟨x, List.mem_filter.mpr ⟨hx, by simpa [refCount_eq_zero] using hzero⟩, rfl⟩
    · intro href hmem
      obtain ⟨y, hy, hid⟩ := List.mem_map.mp hmem
      obtain ⟨hy, hzero⟩ := List.mem_filter.mp hy
      rw [decide_eq_true_eq, refCount_eq_zero, List.inj_on_of_nodup_map hnd hy hx hid] at hzero
      exact href hzero
  have hfst := @gcStorages_fst o s
  rw [hst, show (gcStorages o s).1.devices = _ from hdev] at hfst
  exact Prod.ext hfst hok

end Kuasar.Storages

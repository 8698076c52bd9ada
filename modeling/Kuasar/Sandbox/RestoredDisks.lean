import Kuasar.Sandbox.SnapshotConfig
import Kuasar.Sandbox.StorageReferences

/-!
# Sandbox.RestoredDisks — the disks of a restored VM and the storages of its sandbox

A snapshot of a sandbox takes copies of the disk images that the runtime owns, and the list of the
sandbox's storages as it is. A restore puts the images into the directory of the new sandbox, keeps
the disks of the configuration that have one and strips the others, and gives the new sandbox the
storages with the new paths.

The images and the disks go by the storages with a device that the runtime owns, the list has all
storages. `restored_disks_iff`: along every chain of containers, snapshots and restores, the disks
of the restored configuration are those of the storages exactly if the runtime owned every storage
with a device when the snapshot was taken. A block device of the host is lost: its storage names a
device that the restored VM does not have.
-/

namespace Kuasar.RestoredDisks

open SnapshotConfig
open Storages (Sandbox Numbered)
open Restore (SnapshotRestoreParams)

variable {ν : Type}

/-! ## The snapshot and the restore -/

structure DiskSnapshot where
  storageId : String
  deviceId : String
  imgPath : String
  deriving DecidableEq, Repr

/-- The disks that `create_from_sandbox` hands to the VM. -/
def diskSnapshots (storages : List Storage) : List DiskSnapshot :=
  (storages.filter fun x => x.ownedByRuntime).filterMap fun x =>
    x.deviceId.bind fun deviceId => x.cleanupPath.map fun imgPath => ⟨x.id, deviceId, imgPath⟩

/-- `copy_disk_images`, when every copy is made. -/
def copyDiskImages (disks : List DiskSnapshot) : List DiskImageEntry :=
  disks.map fun disk => ⟨disk.storageId, disk.deviceId, "disks/" ++ disk.storageId ++ ".img"⟩

/-- What a snapshot of a sandbox is restored from: `create_from_sandbox` captures the counter, the
disk images, the storages and the containers, which are orphans in the new sandbox. `containers`
are their ids in the order of the map, and `t` is what does not come from the sandbox. -/
def createFromSandbox (t : SnapshotRestoreParams) (containers : List String) (s : Sandbox) :
    SnapshotRestoreParams :=
  { t with
    idGenerator := s.idGenerator
    diskImages := copyDiskImages (diskSnapshots s.thin)
    storages := s.thin
    orphanContainerIds := s.orphanContainerIds.foldl
      (fun ids id => if id ∈ ids then ids else ids ++ [id]) containers }

/-- The `disk_remaps` of `prepare_restore_block_artifacts`. -/
def diskRemaps (src : SnapshotRestoreParams) (baseDir : String) : List (String × String) :=
  src.diskImages.map fun entry => (entry.deviceId, Restore.sandboxDiskPath baseDir entry)

/-! ## Disks and storages -/

def deviceIds (storages : List Storage) : List String := storages.filterMap fun x => x.deviceId

/-- Those of storages that the runtime owns. -/
def ownedIds (storages : List Storage) : List String :=
  deviceIds (storages.filter fun x => x.ownedByRuntime)

/-- The runtime owns every storage with a device. -/
def AllOwned (storages : List Storage) : Prop :=
  ∀ x ∈ storages, x.deviceId.isSome → x.ownedByRuntime = true

/-- The configuration has a disk for every storage with a device, and no two disks of one id. -/
structure Lists (cfg : JsonTree ν) (storages : List Storage) : Prop where
  distinct : ((disks cfg).filterMap diskId).Nodup
  listed : ∀ d ∈ deviceIds storages, d ∈ (disks cfg).filterMap diskId

/-- The file of a storage in the directory of its sandbox. -/
def imagePath (baseDir : String) (x : Storage) : String := baseDir ++ "/" ++ x.id ++ ".img"

/-- The disks of a configuration are those of the storages with a device, one each; and the disk of
a storage that the runtime owns is at the storage's cleanup path, in the sandbox's directory. -/
structure Corresponds (baseDir : String) (storages : List Storage) (cfg : JsonTree ν) : Prop where
  distinct : (deviceIds storages).Nodup
  disks : ((disks cfg).map diskId).Perm ((deviceIds storages).map some)
  paths : ∀ x ∈ storages, x.ownedByRuntime = true → ∀ d, x.deviceId = some d →
    x.cleanupPath = some (imagePath baseDir x) ∧ ∃ disk ∈ SnapshotConfig.disks cfg,
      diskId disk = some d ∧ disk.get "path" = some (.str (imagePath baseDir x))

section

variable {storages : List Storage} {x y : Storage} {d : String} {cfg cfg' : JsonTree ν}

theorem mem_deviceIds : d ∈ deviceIds storages ↔ ∃ x ∈ storages, x.deviceId = some d :=
  List.mem_filterMap

theorem mem_ownedIds :
    d ∈ ownedIds storages ↔ ∃ x ∈ storages, x.ownedByRuntime = true ∧ x.deviceId = some d := by
  simp only [ownedIds, mem_deviceIds, List.mem_filter, and_assoc]

theorem ownedIds_sublist : (ownedIds storages).Sublist (deviceIds storages) :=
  List.filter_sublist.filterMap _

theorem eq_of_deviceId (hnodup : (deviceIds storages).Nodup) (hx : x ∈ storages)
    (hy : y ∈ storages) (hxd : x.deviceId = some d) (hyd : y.deviceId = some d) : x = y := by
  induction storages with
  | nil => cases hx
  | cons z zs ih =>
    have hrest : (deviceIds zs).Nodup := hnodup.sublist ((List.sublist_cons_self z zs).filterMap _)
    -- the device of the first storage is not that of a later one
    have hfirst : ∀ w ∈ zs, z.deviceId = some d → w.deviceId = some d → False := by
      intro w hw hzd hwd
      rw [deviceIds, List.filterMap_cons_some hzd, List.nodup_cons] at hnodup
      exact hnodup.1 (mem_deviceIds.mpr ⟨w, hw, hwd⟩)
    rcases List.mem_cons.mp hx with rfl | hxs <;> rcases List.mem_cons.mp hy with rfl | hys
    · rfl
    · exact (hfirst y hys hxd hyd).elim
    · exact (hfirst x hxs hyd hxd).elim
    · exact ih hrest hxs hys

theorem ownedIds_perm_iff (hnodup : (deviceIds storages).Nodup) :
    (ownedIds storages).Perm (deviceIds storages) ↔ AllOwned storages := by
  constructor
  · intro hperm x hx hdevice
    obtain ⟨d, hd⟩ := Option.isSome_iff_exists.mp hdevice
    have hmem : d ∈ ownedIds storages := hperm.mem_iff.mpr (mem_deviceIds.mpr ⟨x, hx, hd⟩)
    obtain ⟨y, hy, howned, hyd⟩ := mem_ownedIds.mp hmem
    rw [eq_of_deviceId hnodup hx hy hd hyd]
    exact howned
  · intro howned
    rw [List.perm_ext_iff_of_nodup (hnodup.sublist ownedIds_sublist) hnodup]
    intro d
    rw [mem_ownedIds, mem_deviceIds]
    constructor
    · rintro ⟨x, hx, -, hd⟩
      exact ⟨x, hx, hd⟩
    · rintro ⟨x, hx, hd⟩
      exact ⟨x, hx, howned x hx (hd ▸ rfl), hd⟩

/-! ## The patched configuration -/

variable {overrides : SnapshotPathOverrides} {remaps : List (String × String)}

theorem Moved.diskId_eq {disk disk' : JsonTree ν} (h : Moved remaps disk disk') :
    diskId disk' = diskId disk := by
  obtain ⟨path, -, -, hsame⟩ := h
  rw [diskId, diskId, hsame "id" (by decide)]

theorem map_diskId_of_moved {ds ds' : List (JsonTree ν)}
    (h : List.Forall₂ (Moved remaps) ds ds') : ds'.map diskId = ds.map diskId := by
  induction h with
  | nil => rfl
  | cons hmoved _ ih => rw [List.map_cons, List.map_cons, Moved.diskId_eq hmoved, ih]

/-- A disk is kept if its id is remapped. -/
theorem remapped_isSome_iff {disk : JsonTree ν} :
    (remapped remaps disk).isSome ↔ ∃ d ∈ remaps.map Prod.fst, diskId disk = some d := by
  rw [← newPath_eq_remapped]
  unfold newPath
  cases hid : diskId disk with
  | none => simp
  | some id =>
    rw [Option.bind_some, Option.isSome_map, List.find?_isSome]
    simp only [beq_iff_eq, Option.some.injEq, List.mem_map]
    constructor
    · rintro ⟨remap, hmem, rfl⟩
      exact ⟨_, ⟨remap, hmem, rfl⟩, rfl⟩
    · rintro ⟨_, ⟨remap, hmem, rfl⟩, heq⟩
      exact ⟨remap, hmem, heq.symm⟩

/-- The disks of the patched configuration have the ids that are remapped. -/
theorem diskIds_patched (hpatched : Patched overrides remaps cfg cfg')
    (hdistinct : ((disks cfg).filterMap diskId).Nodup) (hkeys : (remaps.map Prod.fst).Nodup)
    (hlisted : ∀ d ∈ remaps.map Prod.fst, d ∈ (disks cfg).filterMap diskId) :
    ((disks cfg').map diskId).Perm ((remaps.map Prod.fst).map some) := by
  let kept := (disks cfg).filter fun disk => (remapped remaps disk).isSome
  have hids : kept.map diskId = (kept.filterMap diskId).map some := by
    rw [List.map_filterMap, ← List.filterMap_eq_map]
    apply List.filterMap_congr
    intro disk hdisk
    obtain ⟨d, -, hid⟩ := remapped_isSome_iff.mp (List.mem_filter.mp hdisk).2
    rw [hid, Function.comp_apply, hid, Option.map_some]
  have hperm : (kept.filterMap diskId).Perm (remaps.map Prod.fst) := by
    rw [List.perm_ext_iff_of_nodup (hdistinct.sublist (List.filter_sublist.filterMap _)) hkeys]
    intro d
    rw [List.mem_filterMap]
    constructor
    · rintro ⟨disk, hdisk, hd⟩
      obtain ⟨d', hd', hid⟩ := remapped_isSome_iff.mp (List.mem_filter.mp hdisk).2
      rw [hd] at hid
      cases hid
      exact hd'
    · intro hd
      obtain ⟨disk, hdisk, hid⟩ := List.mem_filterMap.mp (hlisted d hd)
      exact ⟨disk, List.mem_filter.mpr ⟨hdisk, remapped_isSome_iff.mpr ⟨d, hd, hid⟩⟩, hid⟩
  rw [map_diskId_of_moved hpatched.moved]
  change (kept.map diskId).Perm _
  rw [hids]
  exact hperm.map some

/-! ## One restore -/

variable {src : SnapshotRestoreParams} {baseDir : String}

/-- Storages that the runtime owns have a file to be cleaned up. -/
def Releasable (storages : List Storage) : Prop :=
  ∀ x ∈ storages, x.ownedByRuntime = true → x.cleanupPath.isSome = true

theorem diskRemaps_fst (himages : src.diskImages = copyDiskImages (diskSnapshots storages))
    (hrel : Releasable storages) :
    (diskRemaps src baseDir).map Prod.fst = ownedIds storages := by
  rw [diskRemaps, himages, copyDiskImages, diskSnapshots, List.map_map, List.map_map,
    List.map_filterMap, ownedIds, deviceIds]
  apply List.filterMap_congr
  intro x hx
  obtain ⟨hmem, howned⟩ := List.mem_filter.mp hx
  obtain ⟨path, hpath⟩ := Option.isSome_iff_exists.mp (hrel x hmem howned)
  cases hd : x.deviceId with
  | none => rfl
  | some d => simp [hpath]

theorem mem_diskRemaps {path : String}
    (himages : src.diskImages = copyDiskImages (diskSnapshots storages))
    (hmem : (d, path) ∈ diskRemaps src baseDir) :
    ∃ x ∈ storages, x.deviceId = some d ∧ path = imagePath baseDir x := by
  rw [diskRemaps, himages, copyDiskImages, List.map_map, diskSnapshots] at hmem
  obtain ⟨disk, hdisk, heq⟩ := List.mem_map.mp hmem
  obtain ⟨x, hx, hsome⟩ := List.mem_filterMap.mp hdisk
  obtain ⟨d', hd', hrest⟩ := Option.bind_eq_some_iff.mp hsome
  obtain ⟨img, -, rfl⟩ := Option.map_eq_some_iff.mp hrest
  obtain ⟨rfl, rfl⟩ := Prod.mk.inj heq
  exact ⟨x, (List.mem_filter.mp hx).1, hd', rfl⟩

theorem deviceIds_remap :
    deviceIds (Restore.remapRestoredStorageArtifacts src baseDir) = deviceIds src.storages := by
  rw [deviceIds, Restore.remapRestoredStorageArtifacts, List.filterMap_map]
  apply List.filterMap_congr
  intro x _
  rw [Function.comp_apply]
  split <;> rfl

/-- A restored storage that the runtime owns is one of the snapshot, with its file in the new
directory. -/
theorem mem_remap_owned (hx : x ∈ Restore.remapRestoredStorageArtifacts src baseDir)
    (howned : x.ownedByRuntime = true) (hd : x.deviceId = some d) :
    x.cleanupPath = some (imagePath baseDir x) ∧
      ∃ y ∈ src.storages, y.ownedByRuntime = true ∧ y.deviceId = some d ∧
        imagePath baseDir y = imagePath baseDir x := by
  obtain ⟨y, hy, rfl⟩ := List.mem_map.mp hx
  split at howned
  · rename_i hcond
    rw [if_pos hcond] at hd ⊢
    exact ⟨rfl, y, hy, howned, hd, rfl⟩
  · rename_i hcond
    rw [if_neg hcond] at hd
    rw [howned, hd] at hcond
    exact absurd rfl hcond

/-- The disks of the restored configuration are those of the restored storages exactly if the
runtime owned every storage with a device. -/
theorem corresponds_iff (himages : src.diskImages = copyDiskImages (diskSnapshots src.storages))
    (hnodup : (deviceIds src.storages).Nodup) (hrel : Releasable src.storages)
    (hlists : Lists cfg src.storages)
    (hpatched : Patched overrides (diskRemaps src baseDir) cfg cfg') :
    Corresponds baseDir (Restore.remapRestoredStorageArtifacts src baseDir) cfg' ↔
      AllOwned src.storages := by
  have hfst := @diskRemaps_fst src.storages src baseDir himages hrel
  have hids : ((disks cfg').map diskId).Perm ((ownedIds src.storages).map some) := by
    rw [← hfst]
    apply diskIds_patched hpatched hlists.distinct
    · rw [hfst]
      exact hnodup.sublist ownedIds_sublist
    · intro d hd
      rw [hfst] at hd
      exact hlists.listed d (ownedIds_sublist.subset hd)
  have hiff : ((disks cfg').map diskId).Perm ((deviceIds src.storages).map some) ↔
      AllOwned src.storages := by
    rw [← ownedIds_perm_iff hnodup]
    constructor
    · intro hall
      exact (List.map_perm_map_iff (Option.some_injective _)).mp (hids.symm.trans hall)
    · intro hall
      exact hids.trans (hall.map some)
  constructor
  · intro hcorr
    rw [← hiff, ← @deviceIds_remap src baseDir]
    exact hcorr.disks
  · intro howned
    refine ⟨?_, ?_, ?_⟩
    · rw [deviceIds_remap]
      exact hnodup
    · rw [deviceIds_remap]
      exact hiff.mpr howned
    · intro x hx hown d hd
      obtain ⟨hcleanup, y, hy, hyown, hyd, hfile⟩ := mem_remap_owned hx hown hd
      refine ⟨hcleanup, ?_⟩
      -- the disk of the id is at the path that the id is remapped to
      have hmem : some d ∈ (disks cfg').map diskId :=
        hids.mem_iff.mpr (List.mem_map.mpr ⟨d, mem_ownedIds.mpr ⟨y, hy, hyown, hyd⟩, rfl⟩)
      obtain ⟨disk, hdisk, hid⟩ := List.mem_map.mp hmem
      obtain ⟨id, path, hremap, hget, hpath⟩ := hpatched.disk_remapped hdisk
      have hidd : id = d := by
        rw [diskId, hget] at hid
        exact Option.some.inj hid
      rw [hidd] at hremap
      obtain ⟨z, hz, hzd, rfl⟩ := mem_diskRemaps himages hremap
      rw [eq_of_deviceId hnodup hz hy hzd hyd, hfile] at hpath
      exact ⟨disk, hdisk, hid, hpath⟩

end

/-! ## Chains -/

/-- A sandbox and the configuration of its VM. -/
structure Link (ν : Type) where
  sandbox : Sandbox
  config : JsonTree ν

/-- A snapshot of a sandbox and a restore from it: the configuration that the hypervisor wrote for
the snapshot, the order of the sandbox's containers, what else the restore is made from, the sandbox
it restores into, and whether the service or the sandboxer does it. -/
structure Fork (ν : Type) where
  snapshot : JsonTree ν
  containers : List String
  params : SnapshotRestoreParams
  machine : Restore.Machine
  outcomes : Restore.Outcomes
  overrides : SnapshotPathOverrides
  byService : Bool

/-- What the snapshot is restored from. -/
def Fork.src (f : Fork ν) (s : Sandbox) : SnapshotRestoreParams :=
  createFromSandbox f.params f.containers s

def Fork.restored (f : Fork ν) (s : Sandbox) : Option Restore.Sandbox :=
  if f.byService then
    match Storages.serviceRestore f.outcomes (f.src s) f.machine with
    | (m, true) => some m.sandbox
    | (_, false) => none
  else
    match Restore.startFromSnapshot f.outcomes (f.src s) f.machine with
    | (m, none) => some m.sandbox
    | (_, some _) => none

/-- The restored sandbox and the configuration of its VM. The snapshot is of type WarmFork or
Continuation, and its configuration lists every attached disk. -/
def Restores (f : Fork ν) (w w' : Link ν) : Prop :=
  (∀ c, c ∈ f.containers ↔ c ∈ w.sandbox.containers) ∧
    f.params.snapshotType ≠ .environment ∧ Lists f.snapshot w.sandbox.thin ∧
    (∃ sb, f.restored w.sandbox = some sb ∧ Storages.Projects sb w'.sandbox) ∧
    patchSnapshotConfig f.overrides (diskRemaps (f.src w.sandbox) f.machine.sandbox.baseDir)
      (.config f.snapshot) true = .ok w'.config

/-- The steps of a chain. What containers do to the configuration is up to the hypervisor. -/
inductive Step (ν : Type) where
  | container (l : Storages.Label)
  | fork (f : Fork ν)

/-- One step. -/
def next : Step ν → Tla.Action (Link ν)
  | .container l => fun w w' => Storages.next l w.sandbox w'.sandbox
  | .fork f => Restores f

/-- A chain starts with a sandbox without storages. -/
def Init (w : Link ν) : Prop := w.sandbox.storages = [] ∧ w.sandbox.idGenerator = 0

/-- The counter has room for the ids of a new container. -/
def Roomy (l : Step ν) (w : Link ν) : Prop :=
  match l with
  | .container (.append _ option _) => Storages.Room option w.sandbox
  | _ => True

/-- The storages of a sandbox have ids of their own, and those that the runtime owns a file. -/
structure Inv (w : Link ν) : Prop where
  numbered : w.sandbox.Numbered
  releasable : Releasable w.sandbox.thin

/-! ## A restore that succeeds -/

/-- The sandbox has the storages and the counter of the snapshot, and its own directory. -/
structure Adopted (src : SnapshotRestoreParams) (baseDir : String) (sb : Restore.Sandbox) :
    Prop where
  storages : sb.storages = Restore.remapRestoredStorageArtifacts src baseDir
  idGenerator : sb.idGenerator = src.idGenerator
  baseDir : sb.baseDir = baseDir

section

variable {o : Restore.Outcomes} {src : SnapshotRestoreParams} {m m' : Restore.Machine}

theorem tryRestore_adopts (htype : src.snapshotType ≠ .environment)
    (h : Restore.tryRestore o src m = (m', none)) :
    Adopted src m.sandbox.baseDir { m'.sandbox with idGenerator := src.idGenerator } ∧
      m'.sandbox.idGenerator = m.sandbox.idGenerator := by
  rcases Restore.tryRestore_spec h with ⟨_, hstep, -⟩ | ⟨_, -, ⟨hstep, -⟩ | ⟨_, -, hdone⟩⟩
  · cases hstep
  · cases hstep
  · have hstorages : Restore.adoptedStorages src m.sandbox =
        Restore.remapRestoredStorageArtifacts src m.sandbox.baseDir := by
      unfold Restore.adoptedStorages
      split
      · contradiction
      · rfl
    rw [hdone rfl, hstorages]
    exact ⟨⟨rfl, rfl, rfl⟩, rfl⟩

/-- A restore of the sandboxer sets the counter at its end. -/
theorem startFromSnapshot_adopts (htype : src.snapshotType ≠ .environment)
    (h : Restore.startFromSnapshot o src m = (m', none)) :
    Adopted src m.sandbox.baseDir m'.sandbox := by
  obtain ⟨vm, network, hprep, -⟩ := Restore.prepareStep_spec o src m.sandbox
  unfold Restore.startFromSnapshot at h
  split at h
  · cases h
  split at h
  · cases h
  rcases hp : Restore.prepareStep o src m.sandbox with ⟨sb, _ | e⟩ <;> rw [hp] at h hprep
  · cases hprep
    dsimp only at h
    split at h
    · cases h
    · rename_i m₁ hr
      obtain ⟨hadopted, -⟩ := tryRestore_adopts htype hr
      unfold Restore.finishStart at h
      dsimp only at h
      repeat' split at h
      all_goals cases h
      exact hadopted
  · cases h

theorem serviceRestore_adopts (htype : src.snapshotType ≠ .environment)
    (h : Storages.serviceRestore o src m = (m', true)) :
    Adopted src m.sandbox.baseDir m'.sandbox := by
  obtain ⟨vm, network, hprep, -⟩ := Restore.prepareStep_spec o src m.sandbox
  unfold Storages.serviceRestore at h
  split at h
  · cases h
  rcases hp : Restore.prepareStep o src m.sandbox with ⟨sb, _ | e⟩ <;> rw [hp] at h hprep
  · cases hprep
    dsimp only at h
    split at h
    · cases h
    · rename_i m₁ hr
      obtain ⟨hadopted, hcounter⟩ := tryRestore_adopts htype hr
      unfold Storages.finishService at h
      dsimp only at h
      split at h <;> cases h
      exact ⟨hadopted.storages, hcounter, hadopted.baseDir⟩
  · cases h

end

section

variable {f : Fork ν} {s : Sandbox} {sb : Restore.Sandbox} {w w' : Link ν}

theorem Fork.restored_adopts (htype : f.params.snapshotType ≠ .environment)
    (h : f.restored s = some sb) : Adopted (f.src s) f.machine.sandbox.baseDir sb := by
  unfold Fork.restored at h
  split at h
  · split at h <;> cases h
    rename_i m hm
    exact serviceRestore_adopts htype hm
  · split at h <;> cases h
    rename_i m hm
    exact startFromSnapshot_adopts htype hm

theorem Restores.sandbox_eq (h : Restores f w w') :
    w'.sandbox.thin = Restore.remapRestoredStorageArtifacts (f.src w.sandbox) w'.sandbox.baseDir ∧
      w'.sandbox.idGenerator = w.sandbox.idGenerator ∧
      w'.sandbox.baseDir = f.machine.sandbox.baseDir := by
  obtain ⟨-, htype, -, ⟨sb, hsb, hproj⟩, -⟩ := h
  have hadopted := Fork.restored_adopts htype hsb
  have hdir : w'.sandbox.baseDir = f.machine.sandbox.baseDir :=
    hproj.baseDir.symm.trans hadopted.baseDir
  refine ⟨?_, hproj.idGenerator.symm.trans hadopted.idGenerator, hdir⟩
  rw [← hproj.storages, hadopted.storages, hdir]

/-! ## The invariant -/

theorem releasable_thin : Releasable s.thin ↔ ∀ x ∈ s.storages, x.Releasable :=
  List.forall_mem_map

theorem releasable_remap {src : SnapshotRestoreParams} {baseDir : String}
    (h : Releasable src.storages) :
    Releasable (Restore.remapRestoredStorageArtifacts src baseDir) := by
  unfold Releasable Restore.remapRestoredStorageArtifacts
  rw [List.forall_mem_map]
  intro x hx
  split
  · intro _
    rfl
  · exact h x hx

theorem Inv.container {l : Storages.Label} (hroomy : Roomy (.container l : Step ν) w)
    (h : Storages.next l w.sandbox w'.sandbox) (hinv : Inv w) : Inv w' := by
  refine ⟨Storages.step_numbered h ?_ hinv.numbered, ?_⟩
  · rintro c option o rfl
    exact hroomy
  · have hrel := releasable_thin.mp hinv.releasable
    rw [releasable_thin]
    cases l with
    | append c option o =>
      rw [← Option.some.inj h]
      exact Storages.releasable_of_descends (Storages.append_descends hroomy) hrel
    | remove c o =>
      obtain ⟨s₁, ok, devices, hdefer, heq⟩ := Storages.remove_cases o c w.sandbox
      have hdesc := @Storages.deferenceContainerStorages_descends c w.sandbox o.detach
      rw [hdefer] at hdesc
      have hrel₁ : ∀ x ∈ s₁.storages, x.Releasable := Storages.releasable_of_descends hdesc hrel
      rw [← Option.some.inj h, heq]
      exact hrel₁
    | create c alive pid =>
      rw [← Option.some.inj h]
      exact hrel

theorem Inv.fork (h : Restores f w w') (hinv : Inv w) : Inv w' := by
  obtain ⟨hthin, hcounter, -⟩ := h.sandbox_eq
  constructor
  · have hcaptured : Numbered w.sandbox.idGenerator (f.src w.sandbox).storages := hinv.numbered
    rw [Storages.Sandbox.Numbered, hthin, hcounter]
    exact Storages.World.numbered_remap hcaptured _
  · rw [hthin]
    exact releasable_remap hinv.releasable

theorem Inv.of_reachable (h : Tla.Reachable Init (Tla.Guarded Roomy next) w) : Inv w := by
  refine h.guarded_invariant ?_ ?_
  · rintro w ⟨hnone, -⟩
    constructor
    · rw [Storages.Sandbox.Numbered, Storages.Sandbox.thin, hnone]
      exact Storages.Numbered.nil _
    · rw [releasable_thin, hnone]
      exact List.forall_mem_nil _
  · intro l w w' hroomy hstep hinv
    cases l with
    | container l => exact hinv.container hroomy hstep
    | fork f => exact hinv.fork hstep

/-! ## The disks of a restored VM -/

/-- Along every chain of containers, snapshots and restores, the disks of a restored VM are those of
the storages of its sandbox exactly if the runtime owned every storage with a device when the
snapshot was taken. -/
theorem restored_disks_iff (h : Tla.Reachable Init (Tla.Guarded Roomy next) w)
    (hfork : next (.fork f) w w') :
    Corresponds w'.sandbox.baseDir w'.sandbox.thin w'.config ↔ AllOwned w.sandbox.thin := by
  have hinv := Inv.of_reachable h
  obtain ⟨hthin, -, hdir⟩ := Restores.sandbox_eq hfork
  obtain ⟨-, -, hlists, -, hpatch⟩ := hfork
  have hpatched := patchSnapshotConfig_patched hpatch
  rw [← hdir] at hpatched
  rw [hthin]
  exact corresponds_iff rfl hinv.numbered.devices hinv.releasable hlists hpatched

end

/-- A sandbox that was created, with block devices for its containers. -/
def created : Link ℕ where
  sandbox := {
    baseDir := "/run/kuasar/s1"
    policy := { virtioBlk := true }
    containers := ∅
    guest := ⟨∅, ∅, []⟩ }
  config := withDisks "s1.vsock" []

/-- The sandbox with a container. -/
def appended (option : Storages.ContainerOption) (o : Storages.AppendOutcomes) : Link ℕ where
  sandbox := (Storages.appendContainer o "a" option created.sandbox).1
  config := withDisks "s1.vsock" []

/-- A WarmFork restore in another directory, of a sandbox with this disk. -/
def warmFork (path : String) : Fork ℕ where
  snapshot := withDisks "s1.vsock" [disk "blk2" path]
  containers := ["a"]
  params := Storages.diskTemplate
  machine := {
    sandbox := { Restore.freshSandbox with baseDir := "/run/kuasar/s2", virtioBlk := true }
    files := fun path =>
      if path = "/snap/disks/storage1.img" then some (.image "root") else none
    movedBack := true }
  outcomes := Restore.Outcomes.smooth
  overrides := ⟨"s2.vsock", "s2.log"⟩
  byService := false

def restoredSandbox (storages : List Storage) : Restore.Sandbox :=
  { (warmFork "").machine.sandbox with
    status := .running 100
    storages := storages
    restore := { Restore.record Storages.diskTemplate Restore.freshSandbox with
      orphanContainerIds := ["a"] }
    client := some 1
    idGenerator := 2
    network := some [] }

/-- The sandbox that is restored, as its containers see it. -/
def forked (storages : List Storages.Storage) (ds : List (JsonTree ℕ)) : Link ℕ where
  sandbox := {
    baseDir := "/run/kuasar/s2"
    policy := { virtioBlk := true }
    leaseMode := some .shared
    idGenerator := 2
    storages := storages
    containers := ∅
    orphanContainerIds := ["a"]
    guest := ⟨∅, ∅, []⟩ }
  config := withDisks "s2.vsock" ds

section

variable {option : Storages.ContainerOption} {o : Storages.AppendOutcomes}

theorem appended_reachable (hroom : Storages.Room option created.sandbox) :
    Tla.Reachable Init (Tla.Guarded Roomy next) (appended option o) :=
  .step (.init (s := created) ⟨rfl, rfl⟩) ⟨.container (.append "a" option o), hroom, rfl⟩

theorem mem_containers_appended (hroom : Storages.Room option created.sandbox)
    (ha : "a" ∈ (appended option o).sandbox.containers) (c : String) :
    c ∈ ["a"] ↔ c ∈ (appended option o).sandbox.containers := by
  rw [List.mem_singleton]
  constructor
  · rintro rfl
    exact ha
  · intro hc
    by_contra hne
    obtain ⟨k, hk⟩ := Finmap.mem_iff.mp hc
    have hlookup : (appended option o).sandbox.containers.lookup c = none :=
      (Storages.append_others hroom).1 c hne
    rw [hk] at hlookup
    cases hlookup

theorem appended_fork {path : String} {storages : List Storages.Storage} {ds : List (JsonTree ℕ)}
    (hroom : Storages.Room option created.sandbox)
    (ha : "a" ∈ (appended option o).sandbox.containers)
    (hdevices : deviceIds (appended option o).sandbox.thin = ["blk2"])
    (hrestored : (warmFork path).restored (appended option o).sandbox =
      some (restoredSandbox (storages.map fun x => x.toStorage)))
    (hpatch : patchSnapshotConfig ⟨"s2.vsock", "s2.log"⟩
      (diskRemaps ((warmFork path).src (appended option o).sandbox) "/run/kuasar/s2")
      (.config (withDisks "s1.vsock" [disk "blk2" path])) true = .ok (withDisks "s2.vsock" ds)) :
    next (.fork (warmFork path)) (appended option o) (forked storages ds) := by
  have hfork : SnapshotType.warmFork ≠ .environment := by decide
  have hlists : Lists (warmFork path).snapshot (appended option o).sandbox.thin := by
    constructor
    · exact List.nodup_singleton "blk2"
    · rw [hdevices]
      intro d hd
      exact hd
  refine ⟨mem_containers_appended hroom ha, hfork, hlists, ⟨_, hrestored, ?_⟩, hpatch⟩
  exact ⟨rfl, rfl, rfl, rfl, rfl, rfl, rfl, fun c =>
    iff_of_false List.not_mem_nil Finmap.notMem_empty⟩

end

/-- A container on an overlay, whose image the runtime makes. -/
def overlayContainer : Storages.ContainerOption where
  rootfs := [⟨"/", "overlay", "overlay", ["lowerdir=/var/lib/layers/1"]⟩]
  spec := some { mounts := [], root := none }

def imageStorage : Storages.Storage :=
  Storages.blockStorage "storage1" "a" ⟨"/", "overlay", "overlay", ["lowerdir=/var/lib/layers/1"]⟩
    "blk2" .pci "" "ext4" (some "/run/kuasar/s2/storage1.img") (some "/var/lib/layers/1")
    (some "overlay:/var/lib/layers/1")

/-- The image of the container's root goes with the fork. -/
theorem restored_disks_iff_overlay :
    Corresponds "/run/kuasar/s2" [imageStorage.toStorage]
      (withDisks "s2.vsock" [disk "blk2" "/run/kuasar/s2/storage1.img"]) := by
  have hroom : Storages.Room overlayContainer created.sandbox := by
    unfold Storages.Room
    decide
  have hfork : next (.fork (warmFork "/run/kuasar/s1/storage1.img")) (appended overlayContainer {})
      (forked [imageStorage] [disk "blk2" "/run/kuasar/s2/storage1.img"]) :=
    appended_fork hroom (by decide) (by decide) (by decide) rfl
  refine (restored_disks_iff (appended_reachable hroom) hfork).mpr ?_
  unfold AllOwned
  decide

def hostDisk : Storages.AppendOutcomes := { host := fun _ => { blockDevice := true } }

/-- A container with a disk of the host in a fork: the storage of the disk is restored, and the
disk is not in the restored configuration. -/
theorem host_disk_lost :
    ∃ (f : Fork ℕ) (w w' : Link ℕ), Tla.Reachable Init (Tla.Guarded Roomy next) w ∧
      next (.fork f) w w' ∧ deviceIds w'.sandbox.thin = ["blk2"] ∧ disks w'.config = [] ∧
      ¬ Corresponds w'.sandbox.baseDir w'.sandbox.thin w'.config := by
  have hroom : Storages.Room Storages.diskContainer created.sandbox := by
    unfold Storages.Room
    decide
  have hfork : next (.fork (warmFork "/dev/sda")) (appended Storages.diskContainer hostDisk)
      (forked (appended Storages.diskContainer hostDisk).sandbox.storages []) :=
    appended_fork hroom (by decide) (by decide) (by decide) rfl
  refine ⟨_, _, _, appended_reachable hroom, hfork, by decide, rfl, ?_⟩
  intro hcorr
  exact absurd hcorr.disks.length_eq (by decide)

end Kuasar.RestoredDisks

import Kuasar.Data.JsonTree
import Kuasar.Template.Types

/-!
# Sandbox.SnapshotConfig — the VM configuration of a restored sandbox

A snapshot has the configuration of the VM it was taken of, with the paths of that VM's
sockets and disks. A restore validates it and writes a patched copy for the new sandbox: the
vsock and console paths are replaced, and the disks are dropped or moved to the copies that
the restore has made.

`patch_snapshot_config_exact` says what the copy has: everything of the source outside these
three places, and no disk but the moved ones.
-/

namespace Kuasar.SnapshotConfig

open JsonTree

variable {ν : Type}

/-- The paths of the new sandbox. -/
structure SnapshotPathOverrides where
  taskVsock : String
  consolePath : String

/-- What is read of the configuration file. -/
inductive Content (ν : Type) where
  | unreadable
  | malformed
  | config (cfg : JsonTree ν)

inductive ConfigError where
  | read
  | parse
  | missingVsockSocket
  | networkDevices
  | write
  deriving DecidableEq, Repr

/-- `read_to_string` and `from_str`. -/
def Content.parsed : Content ν → Except ConfigError (JsonTree ν)
  | .unreadable => .error .read
  | .malformed => .error .parse
  | .config cfg => .ok cfg

def vsockSocket : List String := ["vsock", "socket"]

def consoleFile : List String := ["console", "file"]

/-! ## Validation -/

/-- `has_network_devices`. -/
def hasNetworkDevices (cfg : JsonTree ν) : Bool :=
  match cfg.get "net" with
  | some (.arr devices) => !devices.isEmpty
  | some (.obj device) => !device.isEmpty
  | _ => false

/-- `validate_snapshot_config`. -/
def validateSnapshotConfig (content : Content ν) (snapshotType : SnapshotType) :
    Except ConfigError Unit :=
  match content.parsed with
  | .error e => .error e
  | .ok cfg =>
    if ((cfg.at? (place vsockSocket)).bind asStr).isNone then .error .missingVsockSocket
    else if snapshotType = .environment ∧ hasNetworkDevices cfg then .error .networkDevices
    else .ok ()

/-! ## The patch -/

def diskId (disk : JsonTree ν) : Option String := (disk.get "id").bind asStr

def newPath (diskRemaps : List (String × String)) (disk : JsonTree ν) : Option String :=
  (diskId disk).bind fun id => (diskRemaps.find? fun remap => remap.1 == id).map (·.2)

/-- One step of the `retain_mut` over the disks. -/
def remapDisk (diskRemaps : List (String × String)) (disk : JsonTree ν) : Option (JsonTree ν) :=
  (newPath diskRemaps disk).map fun path => disk.put "path" (.str path)

def patchDisks (diskRemaps : List (String × String)) (disks : JsonTree ν) : JsonTree ν :=
  if diskRemaps.isEmpty then .arr []
  else
    match disks with
    | .arr disks => .arr (disks.filterMap (remapDisk diskRemaps))
    | disks => disks

/-- `patch_snapshot_config`: the configuration that the file at the destination gets. -/
def patchSnapshotConfig (overrides : SnapshotPathOverrides) (diskRemaps : List (String × String))
    (content : Content ν) (written : Bool) : Except ConfigError (JsonTree ν) := do
  let cfg ← content.parsed
  match modifyAt (fun _ => .str overrides.taskVsock) vsockSocket cfg with
  | none => throw .missingVsockSocket
  | some cfg =>
    -- the console may not be there
    let cfg := updateAt (fun _ => .str overrides.consolePath) consoleFile cfg
    let cfg := updateAt (patchDisks diskRemaps) ["disks"] cfg
    if !written then throw .write
    return cfg

/-! ## What the copy has -/

def disks (cfg : JsonTree ν) : List (JsonTree ν) :=
  match cfg.get "disks" with
  | some (.arr disks) => disks
  | _ => []

/-- Where the first of the remaps with the id of the disk has it, if it has an id. -/
def remapped (diskRemaps : List (String × String)) (disk : JsonTree ν) : Option String :=
  match disk.get "id" with
  | some (.str id) => ((diskRemaps.filter (·.1 = id)).map (·.2)).head?
  | _ => none

/-- The disk is the other one, moved to its new path. -/
def Moved (diskRemaps : List (String × String)) (disk disk' : JsonTree ν) : Prop :=
  ∃ path, remapped diskRemaps disk = some path ∧ disk'.get "path" = some (.str path) ∧
    ∀ name, name ≠ "path" → disk'.get name = disk.get name

/-- What becomes of the value at `disks`: of a list the disks that are remapped stay, in their
order, each moved; anything else stays if there are remaps, and is an empty list if not. -/
def DisksPatched (diskRemaps : List (String × String)) :
    Option (JsonTree ν) → Option (JsonTree ν) → Prop
  | none, value' => value' = none
  | some (.arr ds), value' => ∃ ds', value' = some (.arr ds') ∧
    List.Forall₂ (Moved diskRemaps) (ds.filter fun disk => (remapped diskRemaps disk).isSome) ds'
  | some value, value' => value' = some (if diskRemaps.isEmpty then .arr [] else value)

/-- The configuration is the other one with the new paths and with those disks that are
moved. -/
structure Patched (overrides : SnapshotPathOverrides) (diskRemaps : List (String × String))
    (cfg cfg' : JsonTree ν) : Prop where
  elsewhere : ∀ path, ¬ place vsockSocket <+: path → ¬ place consoleFile <+: path →
    ¬ place ["disks"] <+: path → cfg'.nodeAt path = cfg.nodeAt path
  socket : cfg'.at? (place vsockSocket) = some (.str overrides.taskVsock)
  console : cfg'.at? (place consoleFile) =
    (cfg.at? (place consoleFile)).map fun _ => .str overrides.consolePath
  disks : DisksPatched diskRemaps (cfg.at? (place ["disks"])) (cfg'.at? (place ["disks"]))

variable {diskRemaps : List (String × String)}

theorem newPath_eq_remapped (disk : JsonTree ν) :
    newPath diskRemaps disk = remapped diskRemaps disk := by
  unfold newPath remapped diskId
  rcases disk.get "id" with _ | value
  · rfl
  · cases value with
    | str id =>
      dsimp only
      rw [List.head?_map, List.head?_filter]
      rfl
    | null | bool b | num n | arr items | obj fields => rfl

/-- A disk with a new path has an id, and the id is remapped to that path. -/
theorem remapped_eq_some {disk : JsonTree ν} {path : String}
    (h : remapped diskRemaps disk = some path) :
    ∃ id, disk.get "id" = some (.str id) ∧ (id, path) ∈ diskRemaps := by
  unfold remapped at h
  split at h
  · rename_i id hid
    obtain ⟨⟨id', path⟩, hmem, rfl⟩ := List.mem_map.mp (List.mem_of_head? h)
    obtain ⟨hmem, hid'⟩ := List.mem_filter.mp hmem
    exact ⟨id, hid, of_decide_eq_true hid' ▸ hmem⟩
  · cases h

theorem moved_remapDisk {disk disk' : JsonTree ν} (h : remapDisk diskRemaps disk = some disk') :
    Moved diskRemaps disk disk' := by
  obtain ⟨path, hpath, rfl⟩ := Option.map_eq_some_iff.mp h
  rw [newPath_eq_remapped] at hpath
  obtain ⟨id, hid, -⟩ := remapped_eq_some hpath
  refine ⟨path, hpath, ?_, ?_⟩
  · exact (get_put hid "path").trans (if_pos rfl)
  · intro name hname
    exact (get_put hid name).trans (if_neg hname)

/-- The loop over the disks selects those that are remapped, in their order, and moves each. -/
theorem moved_filterMap (diskRemaps : List (String × String)) (ds : List (JsonTree ν)) :
    List.Forall₂ (Moved diskRemaps) (ds.filter fun disk => (remapped diskRemaps disk).isSome)
      (ds.filterMap (remapDisk diskRemaps)) := by
  induction ds with
  | nil => exact .nil
  | cons disk ds ih =>
    cases hpath : remapped diskRemaps disk with
    | none =>
      have hdrop : remapDisk diskRemaps disk = none := by
        rw [remapDisk, newPath_eq_remapped, hpath, Option.map_none]
      rw [List.filter_cons_of_neg (by simp [hpath]), List.filterMap_cons_none hdrop]
      exact ih
    | some path =>
      have hkeep : remapDisk diskRemaps disk = some (disk.put "path" (.str path)) := by
        rw [remapDisk, newPath_eq_remapped, hpath, Option.map_some]
      rw [List.filter_cons_of_pos (by simp [hpath]), List.filterMap_cons_some hkeep]
      exact .cons (moved_remapDisk hkeep) ih

theorem exists_moved {ds ds' : List (JsonTree ν)} (h : List.Forall₂ (Moved diskRemaps) ds ds')
    {disk' : JsonTree ν} (hdisk : disk' ∈ ds') : ∃ disk, Moved diskRemaps disk disk' := by
  induction h with
  | nil => cases hdisk
  | cons hmoved _ ih =>
    rcases List.mem_cons.mp hdisk with rfl | hrest
    · exact ⟨_, hmoved⟩
    · exact ih hrest

theorem disksPatched_map (value : Option (JsonTree ν)) :
    DisksPatched diskRemaps value (value.map (patchDisks diskRemaps)) := by
  rcases hempty : diskRemaps.isEmpty
  · have hsome : ∀ ds : List (JsonTree ν), patchDisks diskRemaps (.arr ds) =
        .arr (ds.filterMap (remapDisk diskRemaps)) := by simp [patchDisks, hempty]
    rcases value with _ | value
    · rfl
    · cases value with
      | arr ds => exact ⟨_, by rw [Option.map_some, hsome], moved_filterMap diskRemaps ds⟩
      | null | bool b | num n | str s | obj fields => simp [DisksPatched, patchDisks, hempty]
  · obtain rfl := List.isEmpty_iff.mp hempty
    have hnone : ∀ disk : JsonTree ν, remapped [] disk = none := by
      intro disk
      unfold remapped
      split <;> rfl
    rcases value with _ | value
    · rfl
    · cases value with
      | arr ds => exact ⟨[], rfl, by simp [hnone]⟩
      | null | bool b | num n | str s | obj fields => rfl

section

variable {overrides : SnapshotPathOverrides} {diskRemaps : List (String × String)}
  {written : Bool} {cfg cfg' : JsonTree ν}

section

variable (h : patchSnapshotConfig overrides diskRemaps (.config cfg) written = .ok cfg')

include h

theorem patchSnapshotConfig_ok :
    written = true ∧ ∃ cfg₁,
      modifyAt (fun _ => .str overrides.taskVsock) vsockSocket cfg = some cfg₁ ∧
      cfg' = updateAt (patchDisks diskRemaps) ["disks"]
        (updateAt (fun _ => .str overrides.consolePath) consoleFile cfg₁) := by
  change (match modifyAt (fun _ => JsonTree.str overrides.taskVsock) vsockSocket cfg with
    | none => _
    | some cfg => _) = _ at h
  split at h
  · cases h
  · rename_i cfg₁ hsocket
    cases written with
    | false => cases h
    | true => exact ⟨rfl, cfg₁, hsocket, (Except.ok.inj h).symm⟩

theorem patchSnapshotConfig_patched : Patched overrides diskRemaps cfg cfg' := by
  obtain ⟨-, cfg₁, hsocket, rfl⟩ := patchSnapshotConfig_ok h
  -- the three places are in three fields of the root
  have hvc : Key.field "vsock" ≠ Key.field "console" := by decide
  have hvd : Key.field "vsock" ≠ Key.field "disks" := by decide
  have hcd : Key.field "console" ≠ Key.field "disks" := by decide
  constructor
  · intro path hvsock hconsole hdisks
    rw [nodeAt_updateAt hdisks, nodeAt_updateAt hconsole, nodeAt_modifyAt hsocket hvsock]
  · obtain ⟨old, -, hnew⟩ := at?_modifyAt hsocket []
    change at? _ (Key.field "vsock" :: [Key.field "socket"]) = _
    rw [at?_updateAt_of_ne hvd, consoleFile, at?_updateAt_of_ne hvc]
    exact hnew
  · have hupdate := at?_updateAt (fun _ => .str overrides.consolePath) consoleFile cfg₁
    have hsame : cfg₁.at? (place consoleFile) = cfg.at? (place consoleFile) :=
      at?_modifyAt_of_ne hsocket hvc.symm [Key.field "file"]
    rw [hsame] at hupdate
    rw [← hupdate]
    exact at?_updateAt_of_ne hcd [Key.field "file"]
  · have hconsole : (updateAt (fun _ => .str overrides.consolePath) consoleFile cfg₁).at?
        (place ["disks"]) = cfg₁.at? (place ["disks"]) := at?_updateAt_of_ne hcd.symm []
    have hvsock : cfg₁.at? (place ["disks"]) = cfg.at? (place ["disks"]) :=
      at?_modifyAt_of_ne hsocket hvd.symm []
    rw [at?_updateAt, hconsole, hvsock]
    exact disksPatched_map _

end

/-- The disks of the copy are those that are remapped, moved. -/
theorem Patched.moved (h : Patched overrides diskRemaps cfg cfg') :
    List.Forall₂ (Moved diskRemaps) ((SnapshotConfig.disks cfg).filter fun disk =>
      (remapped diskRemaps disk).isSome) (SnapshotConfig.disks cfg') := by
  have hdisks : DisksPatched diskRemaps ((cfg.get "disks").bind some)
    ((cfg'.get "disks").bind some) := h.disks
  rw [Option.bind_fun_some, Option.bind_fun_some] at hdisks
  unfold SnapshotConfig.disks
  unfold DisksPatched at hdisks
  split at hdisks
  · rename_i hnone
    rw [hnone, hdisks]
    exact .nil
  · rename_i hds
    obtain ⟨ds', hds', hmoved⟩ := hdisks
    rw [hds, hds']
    exact hmoved
  · rename_i value hvalue hds
    rw [hds, hdisks]
    cases diskRemaps with
    | nil | cons remap remaps =>
      cases value with
      | arr ds => exact absurd rfl (hvalue ds)
      | null | bool b | num n | str s | obj fields => exact .nil

/-- A disk of the copy is at a path that the restore has given. -/
theorem Patched.disk_remapped (h : Patched overrides diskRemaps cfg cfg') {disk : JsonTree ν}
    (hdisk : disk ∈ SnapshotConfig.disks cfg') :
    ∃ id path, (id, path) ∈ diskRemaps ∧ disk.get "id" = some (.str id) ∧
      disk.get "path" = some (.str path) := by
  obtain ⟨old, path, hpath, hnew, hsame⟩ := exists_moved h.moved hdisk
  obtain ⟨id, hid, hmem⟩ := remapped_eq_some hpath
  refine ⟨id, path, hmem, ?_, hnew⟩
  rw [hsame "id" (by decide), hid]

theorem patchSnapshotConfig_ok_iff :
    (∃ cfg', patchSnapshotConfig overrides diskRemaps (.config cfg) true = .ok cfg') ↔
      (cfg.at? (place vsockSocket)).isSome = true := by
  rw [← modifyAt_isSome (fun _ => .str overrides.taskVsock), Option.isSome_iff_exists]
  constructor
  · rintro ⟨cfg', h⟩
    obtain ⟨-, cfg₁, hsocket, -⟩ := patchSnapshotConfig_ok h
    exact ⟨cfg₁, hsocket⟩
  · rintro ⟨cfg₁, hsocket⟩
    refine ⟨updateAt (patchDisks diskRemaps) ["disks"]
      (updateAt (fun _ => .str overrides.consolePath) consoleFile cfg₁), ?_⟩
    change (match modifyAt (fun _ => JsonTree.str overrides.taskVsock) vsockSocket cfg with
      | none => _
      | some cfg => _) = _
    rw [hsocket]
    rfl

theorem validateSnapshotConfig_ok_iff {snapshotType : SnapshotType} :
    validateSnapshotConfig (.config cfg) snapshotType = .ok () ↔
      ((cfg.at? (place vsockSocket)).bind asStr).isSome = true ∧
        ¬ (snapshotType = .environment ∧ hasNetworkDevices cfg = true) := by
  change (if ((cfg.at? (place vsockSocket)).bind asStr).isNone = true then _
    else if snapshotType = .environment ∧ hasNetworkDevices cfg = true then _ else _) = _ ↔ _
  split
  · rename_i hnone
    refine iff_of_false (by simp) ?_
    rintro ⟨hsome, -⟩
    rw [Option.isSome_iff_ne_none] at hsome
    exact hsome (Option.isNone_iff_eq_none.mp hnone)
  · rename_i hsome
    rw [Option.isNone_iff_eq_none, ← ne_eq, ← Option.isSome_iff_ne_none] at hsome
    split
    · rename_i hnet
      exact iff_of_false (by simp) fun h => h.2 hnet
    · rename_i hnet
      exact iff_of_true rfl ⟨hsome, hnet⟩

/-- The other fields of the root are copied. -/
theorem child_patchSnapshotConfig
    (h : patchSnapshotConfig overrides diskRemaps (.config cfg) written = .ok cfg') (key : Key)
    (hvsock : key ≠ .field "vsock") (hconsole : key ≠ .field "console")
    (hdisks : key ≠ .field "disks") : cfg'.at? [key] = cfg.at? [key] := by
  obtain ⟨-, cfg₁, hsocket, rfl⟩ := patchSnapshotConfig_ok h
  calc (updateAt (patchDisks diskRemaps) ["disks"]
        (updateAt (fun _ => .str overrides.consolePath) consoleFile cfg₁)).at? [key]
      = (updateAt (fun _ => .str overrides.consolePath) consoleFile cfg₁).at? [key] :=
        at?_updateAt_of_ne hdisks []
    _ = cfg₁.at? [key] := at?_updateAt_of_ne hconsole []
    _ = cfg.at? [key] := at?_modifyAt_of_ne hsocket hvsock []

/-- A configuration that passes the validation is patched, and the copy passes it again. -/
theorem validated_patched {snapshotType : SnapshotType}
    (h : validateSnapshotConfig (.config cfg) snapshotType = .ok ()) :
    ∃ cfg', patchSnapshotConfig overrides diskRemaps (.config cfg) true = .ok cfg' ∧
      validateSnapshotConfig (.config cfg') snapshotType = .ok () := by
  obtain ⟨hsocket, hnet⟩ := validateSnapshotConfig_ok_iff.mp h
  have hsome : (cfg.at? (place vsockSocket)).isSome = true := by
    cases hat : cfg.at? (place vsockSocket) with
    | none =>
      rw [hat] at hsocket
      cases hsocket
    | some value => rfl
  obtain ⟨cfg', hpatch⟩ := patchSnapshotConfig_ok_iff.mpr hsome
  refine ⟨cfg', hpatch, validateSnapshotConfig_ok_iff.mpr ⟨?_, ?_⟩⟩
  · rw [(patchSnapshotConfig_patched hpatch).socket]
    rfl
  · have hget : cfg'.get "net" = cfg.get "net" := by
      have hat := child_patchSnapshotConfig hpatch (.field "net") (by decide) (by decide)
        (by decide)
      simpa only [at?_cons, at?_nil, child, Option.bind_fun_some] using hat
    unfold hasNetworkDevices at hnet ⊢
    rw [hget]
    exact hnet

end

/-- **Patch.** A configuration with a vsock socket is patched. The copy is the source with the
new socket and console paths and with the remapped disks of the source, in their order, each
at its new path; so every disk of it is one that the restore has made. -/
theorem patch_snapshot_config_exact (overrides : SnapshotPathOverrides)
    (diskRemaps : List (String × String)) (cfg : JsonTree ν) :
    ((∃ cfg', patchSnapshotConfig overrides diskRemaps (.config cfg) true = .ok cfg') ↔
      (cfg.at? (place vsockSocket)).isSome = true) ∧
    ∀ written cfg', patchSnapshotConfig overrides diskRemaps (.config cfg) written = .ok cfg' →
      Patched overrides diskRemaps cfg cfg' ∧
      ∀ disk ∈ disks cfg', ∃ id path, (id, path) ∈ diskRemaps ∧
        disk.get "id" = some (.str id) ∧ disk.get "path" = some (.str path) := by
  refine ⟨patchSnapshotConfig_ok_iff, ?_⟩
  intro written cfg' h
  have hpatched := patchSnapshotConfig_patched h
  exact ⟨hpatched, fun disk => hpatched.disk_remapped⟩

def withDisks (socket : String) (ds : List (JsonTree ℕ)) : JsonTree ℕ :=
  .obj [("vsock", .obj [("cid", .num 3), ("socket", .str socket)]), ("disks", .arr ds)]

def disk (id path : String) : JsonTree ℕ := .obj [("id", .str id), ("path", .str path)]

/-- Of two disks the one that is remapped stays. -/
theorem patch_snapshot_config_twoDisks :
    ∃ cfg', patchSnapshotConfig ⟨"new.vsock", "new.log"⟩ [("d1", "new/d1.img")]
        (.config (withDisks "old.vsock" [disk "d0" "old/d0.img", disk "d1" "old/d1.img"])) true =
          .ok cfg' ∧
      disks cfg' = [disk "d1" "new/d1.img"] ∧
      Patched ⟨"new.vsock", "new.log"⟩ [("d1", "new/d1.img")]
        (withDisks "old.vsock" [disk "d0" "old/d0.img", disk "d1" "old/d1.img"]) cfg' :=
  ⟨_, rfl, rfl, ((patch_snapshot_config_exact _ _ _).2 true _ rfl).1⟩

theorem validated_patched_oneDisk :
    ∃ cfg', patchSnapshotConfig ⟨"new.vsock", "new.log"⟩ []
        (.config (withDisks "old.vsock" [disk "d0" "old/d0.img"])) true = .ok cfg' ∧
      validateSnapshotConfig (.config cfg') .environment = .ok () :=
  validated_patched rfl

end Kuasar.SnapshotConfig

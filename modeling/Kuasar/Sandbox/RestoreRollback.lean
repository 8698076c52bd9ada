import Kuasar.Sandbox.Restore

/-!
# Sandbox.RestoreRollback — what a failed restore leaves of the sandbox

`start_from_snapshot` rolls back by hand, stage by stage. For every sandbox and every
step at which it can fail, `restore_rolls_back_iff` says when the sandbox and its VM are
as they were before. The devices a prepared network left in the VM's configuration are
never taken out again, and neither is the connection to the guest; the record is cleared
rather than restored; the storages, the id generator and the status are not rolled back
at all. A sandbox whose network brings no device fails cleanly up to the connection.
-/

namespace Kuasar.Restore

/-- How far a restore came. -/
inductive Stage where
  | lookup
  | network
  | boot
  | plug
  | guest
  | finish
  deriving DecidableEq, Repr

def RestoreStep.stage : RestoreStep → Stage
  | .lookup => .lookup
  | .preStart => .lookup
  | .prepareNetwork _ => .network
  | .restoreVm _ => .boot
  | .initClient => .boot
  | .hotplugNetwork => .plug
  | .refreshIdentity => .guest
  | .warmForkParams => .guest
  | .injectTask => .guest
  | .pushSandboxFiles => .guest
  | .setupSandbox => .guest
  | .addToCgroup => .finish
  | .postStart => .finish
  | .dump => .finish

/-- The sandbox and its VM are as they were, as far as the next attempt depends on it. -/
@[mk_iff] structure Unchanged (before after : Sandbox) : Prop where
  storages : after.storages = before.storages
  restore : after.restore = before.restore
  client : after.client = before.client
  idGenerator : after.idGenerator = before.idGenerator
  status : after.status = before.status
  vm : after.vm = before.vm

def Interface.addsDevice (i : Interface) : Bool :=
  match i.type with
  | .veth (some (_ :: _)) => true
  | .physical => true
  | _ => false

def Interface.attachable (i : Interface) : Bool :=
  i.prepares &&
    match i.type with
    | .veth (some (_ :: _)) => true
    | .physical => true
    | .other => true
    | _ => false

/-- The interfaces that are attached before the first that fails. -/
def attached (is : List Interface) : List Interface := is.takeWhile Interface.attachable

section

variable (o : Outcomes) (src : SnapshotRestoreParams) (sb : Sandbox)

def AddsNoDevice : Prop :=
  sb.netns ≠ "" → src.snapshotType ≠ .continuation → ∀ is, o.interfaces = some is →
    ∀ i ∈ attached is, i.addsDevice = false

/-- Nothing is recorded of an earlier restore. -/
def Unrecorded : Prop := sb.restore = {}

def NothingPending : Prop := sb.vm.pendingNetHotplug = []

def Connected : Prop := sb.client ≠ none

def adoptedStorages : List Storage :=
  match src.snapshotType with
  | .environment => sb.storages
  | _ => remapRestoredStorageArtifacts src sb.baseDir

def storagesAfterStop (storages : List Storage) : List Storage :=
  if sb.containers.isEmpty then storages else o.removeContainers storages

/-- When a restore that fails in this stage leaves the sandbox as it was. -/
def CleanAt : Stage → Prop
  | .lookup => True
  | .network => AddsNoDevice o src sb
  | .boot => AddsNoDevice o src sb ∧ Unrecorded sb
  | .plug => False
  | .guest =>
    AddsNoDevice o src sb ∧ Unrecorded sb ∧ NothingPending sb ∧ Connected sb ∧
      adoptedStorages src sb = sb.storages
  | .finish =>
    AddsNoDevice o src sb ∧ Unrecorded sb ∧
      (src.snapshotType ≠ .continuation → NothingPending sb) ∧ Connected sb ∧
      storagesAfterStop o sb (adoptedStorages src sb) = sb.storages ∧
      sb.idGenerator = src.idGenerator ∧ sb.status = .running o.pid

end

variable {o : Outcomes} {src : SnapshotRestoreParams}

/-! ## The network -/

/-- An interface that can be attached adds its device, or leaves the VM as it was. -/
theorem attachNetwork_attachable (vm : Vm) {i : Interface} (is : List Interface)
    (h : i.attachable = true) :
    ∃ vm', attachNetwork vm (i :: is) = attachNetwork vm' is ∧
      vm'.devices = vm.devices ++ (if i.addsDevice then [i.id] else []) ∧
      (i.addsDevice = false → vm' = vm) := by
  obtain ⟨id, mac, type, prepares⟩ := i
  obtain ⟨rfl, htype⟩ : prepares = true ∧ _ := by simpa [Interface.attachable] using h
  rcases type with (_ | _ | ⟨fd, fds⟩) | _ | _ | _ | _
  case veth.some.cons =>
    exact ⟨vm.attachTap id mac (fd :: fds), rfl, rfl, by simp [Interface.addsDevice]⟩
  case physical => exact ⟨vm.addDevice id, rfl, rfl, by simp [Interface.addsDevice]⟩
  case other => exact ⟨vm, rfl, by simp [Interface.addsDevice], fun _ => rfl⟩
  all_goals exact absurd htype Bool.false_ne_true

/-- One that cannot ends the loop. -/
theorem attachNetwork_not_attachable (vm : Vm) {i : Interface} (is : List Interface)
    (h : i.attachable = false) : (attachNetwork vm (i :: is)).1 = vm := by
  unfold attachNetwork
  by_cases hp : i.prepares = true
  · rcases hty : i.type with (_ | _ | ⟨fd, fds⟩) | _ | _ | _ | _ <;>
      simp_all [Interface.attachable, Interface.attachTo]
  · simp [hp]

/-- The devices of the VM grow by those of the interfaces attached. -/
theorem attachNetwork_devices (vm : Vm) (is : List Interface) :
    (attachNetwork vm is).1.devices =
      vm.devices ++ ((attached is).filter Interface.addsDevice).map (·.id) := by
  induction is generalizing vm with
  | nil => simp [attachNetwork, attached]
  | cons i is ih =>
    unfold attached at ih ⊢
    cases h : i.attachable with
    | true =>
      obtain ⟨vm', heq, hdev, -⟩ := attachNetwork_attachable vm is h
      rw [heq, ih, hdev, List.takeWhile_cons_of_pos h]
      cases hadd : i.addsDevice <;> simp [hadd]
    | false =>
      rw [attachNetwork_not_attachable vm is h, List.takeWhile_cons_of_neg (by simp [h])]
      simp

/-- Interfaces that add no device leave the VM as it was. -/
theorem attachNetwork_same (vm : Vm) (is : List Interface)
    (hnone : ∀ i ∈ attached is, i.addsDevice = false) : (attachNetwork vm is).1 = vm := by
  induction is generalizing vm with
  | nil => rfl
  | cons i is ih =>
    unfold attached at ih hnone
    cases h : i.attachable with
    | true =>
      rw [List.takeWhile_cons_of_pos h] at hnone
      obtain ⟨vm', heq, -, hsame⟩ := attachNetwork_attachable vm is h
      rw [heq, hsame (hnone i List.mem_cons_self)]
      exact ih vm fun i' hi' => hnone i' (List.mem_cons_of_mem _ hi')
    | false => exact attachNetwork_not_attachable vm is h

/-- What a step did to the VM: it added devices, or nothing. -/
structure Grown (vm vm' : Vm) (addsNone : Prop) : Prop where
  same : vm' = vm ↔ addsNone
  of_devices : vm'.devices = vm.devices → vm' = vm

theorem attachNetwork_grown (vm : Vm) (is : List Interface) :
    Grown vm (attachNetwork vm is).1 (∀ i ∈ attached is, i.addsDevice = false) := by
  have hdev : (attachNetwork vm is).1.devices = vm.devices →
      ∀ i ∈ attached is, i.addsDevice = false := by
    intro h i hi
    rw [attachNetwork_devices] at h
    have hnil : ((attached is).filter Interface.addsDevice).map (·.id) = [] := by simpa using h
    rw [List.map_eq_nil_iff, List.filter_eq_nil_iff] at hnil
    simpa using hnil i hi
  refine ⟨⟨?_, attachNetwork_same vm is⟩, ?_⟩
  · intro h
    exact hdev (by rw [h])
  · intro h
    exact attachNetwork_same vm is (hdev h)

/-- Preparing the network changes the VM and the network, nothing else. -/
theorem prepareStep_spec (o : Outcomes) (src : SnapshotRestoreParams) (sb : Sandbox) :
    ∃ vm network, (prepareStep o src sb).1 = { sb with vm := vm, network := network } ∧
      Grown sb.vm vm (AddsNoDevice o src sb) := by
  have hnone : AddsNoDevice o src sb → Grown sb.vm sb.vm (AddsNoDevice o src sb) :=
    fun h => ⟨⟨fun _ => h, fun _ => rfl⟩, fun _ => rfl⟩
  unfold prepareStep prepareNetwork
  by_cases hcond : sb.netns ≠ "" ∧ src.snapshotType ≠ .continuation
  · rw [if_pos hcond]
    cases his : o.interfaces with
    | none =>
      refine ⟨sb.vm, sb.network, rfl, hnone ?_⟩
      intro _ _ is hsome
      rw [his] at hsome
      simp at hsome
    | some is =>
      have hiff : (∀ i ∈ attached is, i.addsDevice = false) ↔ AddsNoDevice o src sb := by
        refine ⟨?_, fun h => h hcond.1 hcond.2 is his⟩
        intro h _ _ is' his'
        rw [his] at his'
        cases his'
        exact h
      have hgrown : Grown sb.vm (attachNetwork sb.vm is).1 (AddsNoDevice o src sb) :=
        hiff.eq ▸ attachNetwork_grown sb.vm is
      rcases hat : attachNetwork sb.vm is with ⟨vm, _ | e⟩ <;> rw [hat] at hgrown
      · exact ⟨vm, some is, by simp [hat], hgrown⟩
      · exact ⟨vm, sb.network, by simp [hat], hgrown⟩
  · rw [if_neg hcond]
    refine ⟨sb.vm, sb.network, rfl, hnone ?_⟩
    intro hns htype
    exact absurd ⟨hns, htype⟩ hcond

/-! ## The guest -/

theorem initClient_spec {sb sb' : Sandbox} (h : initClient o sb = some sb') :
    ∃ client, sb' = { sb with client := client } ∧ (client = sb.client ↔ Connected sb) := by
  unfold initClient at h
  cases hc : sb.client with
  | some client =>
    rw [hc] at h
    cases h
    exact ⟨sb.client, rfl, by simp [Connected, hc]⟩
  | none =>
    rw [hc] at h
    obtain ⟨client, -, rfl⟩ := Option.map_eq_some_iff.mp h
    exact ⟨some client, rfl, by simp [Connected, hc]⟩

def pluggedVm (src : SnapshotRestoreParams) (vm : Vm) : Vm :=
  match src.snapshotType with
  | .continuation => vm
  | _ => { vm with pendingNetHotplug := [] }

/-- Adopting the guest fails while something is plugged in, or leaves the storages, the
record and the VM as the snapshot wants them. -/
theorem adoptGuest_spec {sb sb' : Sandbox} {r : Option RestoreStep}
    (h : adoptGuest o src sb = (sb', r)) :
    (r = some .hotplugNetwork ∧ sb.vm.pendingNetHotplug ≠ [] ∧
      sb' = { sb with vm := { sb.vm with pendingNetHotplug := [] } }) ∨
    ((∀ step, r = some step → step.stage = .guest ∧ src.snapshotType ≠ .continuation) ∧
      ∃ restored, sb' = { sb with
        vm := pluggedVm src sb.vm, storages := adoptedStorages src sb, restore := restored }) := by
  unfold adoptGuest hotplugPendingNetwork at h
  unfold pluggedVm adoptedStorages
  cases htype : src.snapshotType with
  | continuation =>
    rw [htype] at h
    cases h
    exact Or.inr ⟨by simp, _, rfl⟩
  | _ =>
    -- both hotplug first
    rw [htype] at h
    rcases hplug : sb.vm.pendingNetHotplug.isEmpty || o.hotplug with _ | _ <;> rw [hplug] at h
    · cases h
      rw [Bool.or_eq_false_iff] at hplug
      exact Or.inl ⟨rfl, by simpa using hplug.1, rfl⟩
    · refine Or.inr ?_
      simp only at h
      repeat' split at h
      all_goals
        cases h
        exact ⟨by simp [RestoreStep.stage], _, rfl⟩

/-- The VM is as it was after the devices were plugged in, exactly if there were none. -/
theorem Grown.plugged {vm vm' : Vm} {addsNone : Prop} (h : Grown vm vm' addsNone) :
    { vm' with pendingNetHotplug := [] } = vm ↔ addsNone ∧ vm.pendingNetHotplug = [] := by
  refine ⟨?_, ?_⟩
  · intro heq
    have hdev : vm'.devices = vm.devices := by rw [← heq]
    have hpend : vm.pendingNetHotplug = [] := by rw [← heq]
    exact ⟨h.same.mp (h.of_devices hdev), hpend⟩
  · rintro ⟨hnone, hpend⟩
    rw [h.same.mpr hnone, ← hpend]

/-- How `try_restore` leaves the sandbox: untouched when the VM or the connection fails,
with nothing pending when plugging in fails, else adopted by the guest's snapshot, and
running if nothing failed. -/
theorem tryRestore_spec {m m' : Machine} {r : Option RestoreStep}
    (h : tryRestore o src m = (m', r)) :
    (∃ step, r = some step ∧ step.stage = .boot ∧ m'.sandbox = m.sandbox) ∨
    ∃ client, (client = m.sandbox.client ↔ Connected m.sandbox) ∧
      ((r = some .hotplugNetwork ∧ m.sandbox.vm.pendingNetHotplug ≠ [] ∧
        m'.sandbox = { m.sandbox with
          client := client, vm := { m.sandbox.vm with pendingNetHotplug := [] } }) ∨
      ∃ restored,
        (∀ step, r = some step → step.stage = .guest ∧ src.snapshotType ≠ .continuation ∧
          m'.sandbox = { m.sandbox with
            client := client, vm := pluggedVm src m.sandbox.vm,
            storages := adoptedStorages src m.sandbox, restore := restored }) ∧
        (r = none → m'.sandbox = { m.sandbox with
          client := client, vm := pluggedVm src m.sandbox.vm,
          storages := adoptedStorages src m.sandbox, restore := restored,
          status := .running o.pid })) := by
  have hsame : (vmRestore o src m).1.sandbox = m.sandbox := vmRestore_sandbox m
  unfold tryRestore at h
  rcases hvm : vmRestore o src m with ⟨m₁, _ | vmStep⟩ <;> rw [hvm] at h hsame
  · simp only at h hsame
    rw [hsame] at h
    rcases hclient : initClient o m.sandbox with _ | sb₁ <;> rw [hclient] at h
    · cases h
      exact Or.inl ⟨_, rfl, rfl, hsame⟩
    · refine Or.inr ?_
      obtain ⟨client, rfl, hconn⟩ := initClient_spec hclient
      refine ⟨client, hconn, ?_⟩
      rcases hguest : adoptGuest o src { m.sandbox with client := client } with ⟨sb₂, r₂⟩
      simp only [hguest] at h
      rcases adoptGuest_spec hguest with ⟨rfl, hpend, rfl⟩ | ⟨hstep, restored, rfl⟩
      · cases h
        exact Or.inl ⟨rfl, hpend, rfl⟩
      · refine Or.inr ⟨restored, ?_, ?_⟩
        · rintro step rfl
          cases r₂ with
          | none => simp at h
          | some step' =>
            cases h
            exact ⟨(hstep _ rfl).1, (hstep _ rfl).2, rfl⟩
        · rintro rfl
          cases r₂ with
          | none =>
            cases h
            rfl
          | some step' => simp at h
  · cases h
    exact Or.inl ⟨_, rfl, rfl, hsame⟩

/-- The rollback after the VM runs clears the record and removes the containers. -/
theorem finishStart_failed {sb sb' : Sandbox} {step : RestoreStep}
    (hpid : sb.status = .running o.pid) (h : finishStart o src sb = (sb', some step)) :
    step.stage = .finish ∧ ∃ network containers, sb' = { sb with
      restore := {}, idGenerator := src.idGenerator, network := network, containers := containers,
      storages := storagesAfterStop o sb sb.storages } := by
  have hroll : ∀ sb : Sandbox, sb.status = .running o.pid → ∃ network containers,
      rollbackPostRestore o sb = { sb with
        restore := {}, network := network, containers := containers,
        storages := storagesAfterStop o sb sb.storages } := by
    intro sb hpid
    unfold rollbackPostRestore Sandbox.stop Sandbox.clearTemplateRestoreState storagesAfterStop
    simp only [hpid]
    cases o.vmStop
    · exact ⟨sb.network, [], rfl⟩
    · exact ⟨none, [], rfl⟩
  obtain ⟨network, containers, hrolled⟩ := hroll { sb with idGenerator := src.idGenerator } hpid
  unfold finishStart at h
  simp only [hrolled] at h
  repeat' split at h
  all_goals
    cases h
  all_goals exact ⟨rfl, network, containers, rfl⟩

/-! ## The rollback -/

section Rollback

variable {sb : Sandbox} {vm : Vm} {network : Option (List Interface)} {client : Option ℕ}
  (hgrown : Grown sb.vm vm (AddsNoDevice o src sb))

include hgrown

theorem unchanged_boot_iff : Unchanged sb { sb with vm := vm, network := network, restore := {} } ↔
      CleanAt o src sb .boot := by
  calc Unchanged sb { sb with vm := vm, network := network, restore := {} }
    _ ↔ sb.storages = sb.storages ∧ {} = sb.restore ∧ sb.client = sb.client ∧
          sb.idGenerator = sb.idGenerator ∧ sb.status = sb.status ∧ vm = sb.vm := unchanged_iff _ _
    _ ↔ AddsNoDevice o src sb ∧ sb.restore = {} := by
        simp [hgrown.same, eq_comm, and_comm]

/-- What was pending is gone, and something was: the VM had it, or got it. -/
theorem not_unchanged_plug (hpend : vm.pendingNetHotplug ≠ []) :
    ¬ Unchanged sb { sb with
      vm := { vm with pendingNetHotplug := [] }, network := network, client := client,
      restore := {} } := by
  intro hsame
  have hplugged : { vm with pendingNetHotplug := [] } = sb.vm := hsame.vm
  obtain ⟨hnone, hnil⟩ := hgrown.plugged.mp hplugged
  rw [hgrown.same.mpr hnone] at hpend
  exact hpend hnil

theorem Grown.pluggedVm :
    pluggedVm src vm = sb.vm ↔
      AddsNoDevice o src sb ∧ (src.snapshotType ≠ .continuation → NothingPending sb) := by
  unfold Restore.pluggedVm NothingPending
  cases src.snapshotType with
  | continuation => simp [hgrown.same]
  | warmFork | environment => simp [hgrown.plugged]

theorem unchanged_guest_iff (hclient : client = sb.client ↔ Connected sb)
    (htype : src.snapshotType ≠ .continuation) :
    Unchanged sb { sb with
      vm := pluggedVm src vm, network := network, client := client, restore := {},
      storages := adoptedStorages src sb } ↔ CleanAt o src sb .guest := by
  rw [unchanged_iff, hgrown.pluggedVm, hclient, eq_comm (b := sb.restore)]
  unfold CleanAt Unrecorded
  tauto

theorem unchanged_finish_iff {containers : List String}
    (hclient : client = sb.client ↔ Connected sb) :
    Unchanged sb { sb with
      vm := pluggedVm src vm, network := network, client := client, restore := {},
      storages := storagesAfterStop o sb (adoptedStorages src sb),
      idGenerator := src.idGenerator, status := .running o.pid, containers := containers } ↔
      CleanAt o src sb .finish := by
  rw [unchanged_iff, hgrown.pluggedVm, hclient, eq_comm (b := sb.restore),
    eq_comm (b := sb.idGenerator), eq_comm (b := sb.status)]
  unfold CleanAt Unrecorded
  tauto

end Rollback

/-- **Rollback.** A restore that fails leaves the sandbox and its VM as they were if and
only if the condition `CleanAt` of the stage it failed in holds. -/
theorem restore_rolls_back_iff (o : Outcomes) (src : SnapshotRestoreParams) (m m' : Machine)
    (step : RestoreStep) (h : startFromSnapshot o src m = (m', some step)) :
    Unchanged m.sandbox m'.sandbox ↔ CleanAt o src m.sandbox step.stage := by
  have hlookup : Unchanged m.sandbox m.sandbox := ⟨rfl, rfl, rfl, rfl, rfl, rfl⟩
  unfold startFromSnapshot at h
  split at h
  · cases h
    exact iff_of_true hlookup trivial
  split at h
  · cases h
    exact iff_of_true hlookup trivial
  obtain ⟨vm, network, hprep, hgrown⟩ := prepareStep_spec o src m.sandbox
  rcases hp : prepareStep o src m.sandbox with ⟨sb, _ | e⟩ <;> rw [hp] at h hprep
  case some =>
    cases h
    cases hprep
    simp [unchanged_iff, Sandbox.destroyNetwork, RestoreStep.stage, CleanAt, hgrown.same]
  -- the network is prepared, and `tryRestore` starts from the sandbox with its record
  simp only at h hprep
  rcases htry : tryRestore o src { m with sandbox := { sb with restore := record src sb } } with
    ⟨⟨sb₁, files, movedBack⟩, r⟩
  rw [htry] at h
  subst hprep
  rcases tryRestore_spec htry with ⟨step', rfl, hstage, hsb⟩ | ⟨client, hclient, hrest⟩
  · cases h
    cases hsb
    rw [hstage]
    exact unchanged_boot_iff hgrown
  rcases hrest with ⟨rfl, hpend, hsb⟩ | ⟨restored, hguest, hdone⟩
  · cases h
    cases hsb
    exact iff_of_false (not_unchanged_plug hgrown hpend) id
  cases r with
  | some step' =>
    cases h
    obtain ⟨hstage, htype, hsb⟩ := hguest step rfl
    cases hsb
    rw [hstage]
    exact unchanged_guest_iff hgrown hclient htype
  | none =>
    have hsb := hdone rfl
    rcases hfin : finishStart o src sb₁ with ⟨sb₂, r₂⟩
    simp only [hfin] at h
    cases h
    cases hsb
    obtain ⟨hstage, network', containers, rfl⟩ := finishStart_failed rfl hfin
    rw [hstage]
    exact unchanged_finish_iff hgrown hclient

/-! ## A device that stays -/

/-- A tap device is found in the namespace, and the hypervisor refuses to restore. -/
def apiFails : Outcomes :=
  { Outcomes.smooth with
    interfaces := some [⟨"eth0", "02:00:00:00:00:01", .veth (some [7]), true⟩]
    api := false }

def freshMachine : Machine := ⟨freshSandbox, fun _ => none, true⟩

def environmentSnapshot : SnapshotRestoreParams where
  snapshotDir := "/var/lib/kuasar/t1"
  templateId := some "t1"
  snapshotType := .environment
  idGenerator := 0
  diskImages := []
  storages := []
  orphanContainerIds := []
  leaseMode := .shared
  reflinkSupported := false
  memoryRestoreMode := .copy
  warmForkTargets := none

theorem restore_rolls_back_iff_freshSandbox :
    (startFromSnapshot apiFails environmentSnapshot freshMachine).2 = some (.restoreVm .api) ∧
      (Unchanged freshSandbox
          (startFromSnapshot apiFails environmentSnapshot freshMachine).1.sandbox ↔
        CleanAt apiFails environmentSnapshot freshSandbox .boot) :=
  ⟨rfl, restore_rolls_back_iff apiFails environmentSnapshot freshMachine _ (.restoreVm .api) rfl⟩

/-- The hypervisor refuses the restore, and the tap device stays in the VM's
configuration: the next attempt finds it there and adds it a second time. -/
theorem failed_restore_leaves_device :
    let failed := (startFromSnapshot apiFails environmentSnapshot freshMachine).1
    (startFromSnapshot apiFails environmentSnapshot freshMachine).2 = some (.restoreVm .api) ∧
      failed.sandbox.vm = ⟨["eth0"], [7], [⟨"eth0", "02:00:00:00:00:01", [7], 2⟩]⟩ ∧
      (prepareNetwork apiFails failed.sandbox).1.vm.devices = ["eth0", "eth0"] ∧
      ¬ Unchanged freshSandbox failed.sandbox := by
  intro failed
  refine ⟨rfl, rfl, rfl, ?_⟩
  intro hsame
  have hdevices : ["eth0"] = ([] : List String) := congrArg Vm.devices hsame.vm
  simp at hdevices

end Kuasar.Restore

import Kuasar.Hypervisor.StratovirtBus

/-!
# Hypervisor.StratovirtPorts — devices that are hot-attached to a StratoVirt VM

A hot-plugged device goes behind a root port of the pool. `get_empty_rootport_slot` writes the
device's id on the first free port, before anything is sent to the hypervisor. Nothing takes the
id off again: an attach that fails leaves it, and a detach empties slots of the buses of the VM's
devices, among which the pool is not.

`ports_accurate`: the taken ports are those of the devices on the list as long as no attach fails
once it has a port and no device is detached. `freePorts_run` counts: every attempt to attach a
device costs a port for good.
-/

namespace Kuasar.Hypervisor.Stratovirt

open FirstMatch Tla

/-! ## Attaching and detaching -/

/-- The devices that `hot_attach` tells apart. -/
inductive HotDeviceInfo where
  | block (id : String)
  | tap
  | physical
  | vhostUser
  | char
  deriving DecidableEq, Repr

/-- Why a call failed. Without a pool the search for a port panics. -/
inductive HotplugError where
  | noPool
  | resourceExhausted
  | noClient
  | qmp
  | unimplemented (what : String)
  deriving DecidableEq, Repr

/-- A port that no device is recorded on. -/
def isFree (port : RootPort) : Bool := port.deviceId = ""

def RootPort.take (deviceId : String) (port : RootPort) : RootPort :=
  { port with deviceId := deviceId }

/-- `get_empty_rootport_slot`: the ports, and the number of the one that was found. -/
def getEmptyRootportSlot (deviceId : String) (ports : List RootPort) :
    Option (List RootPort × ℕ) :=
  match ports.find? isFree with
  | none => none
  | some port => some (updateFirst isFree (RootPort.take deviceId) ports, port.index)

/-- `hot_attach_device`. -/
def hotAttachDevice (o : QmpOutcomes) (id : String) (vm : VM) : VM × Except HotplugError ℕ :=
  match vm.rootPortsPool with
  | none => (vm, .error .noPool)
  | some ports =>
    match getEmptyRootportSlot id ports with
    | none => (vm, .error .resourceExhausted)
    | some (ports, index) =>
      let vm := { vm with rootPortsPool := some ports }
      if !vm.client then (vm, .error .noClient)
      else if !(o.addBackend && o.addDevice) then (vm, .error .qmp)
      else ({ vm with hotAttached := vm.hotAttached ++ [id] }, .ok index)

/-- `hot_attach`: the address for the guest. -/
def hotAttach (o : QmpOutcomes) (info : HotDeviceInfo) (vm : VM) :
    VM × Except HotplugError String :=
  match info with
  | .block id =>
    match hotAttachDevice o id vm with
    | (vm, .error e) => (vm, .error e)
    | (vm, .ok index) => (vm, .ok ("0000:00:" ++ twoDigits index ++ ".0"))
  | .tap => (vm, .error (.unimplemented "hot attach for tap device"))
  | .physical => (vm, .error (.unimplemented "hot attach for vfio device"))
  | .vhostUser => (vm, .error (.unimplemented "hot attach for vhost_user device"))
  | .char => (vm, .error (.unimplemented "hot attach for char device"))

/-- `hot_detach`. -/
def hotDetach (o : QmpOutcomes) (id : String) (vm : VM) : VM × Except HotplugError Unit :=
  if id ∉ vm.hotAttached then (vm, .ok ())
  else
    let rest := vm.hotAttached.erase id
    if !vm.client then ({ vm with hotAttached := rest ++ [id] }, .error .noClient)
    else if !executeHotDetach o then ({ vm with hotAttached := rest ++ [id] }, .error .qmp)
    else ({ vm with hotAttached := rest, buses := detachFromBus id vm.buses }, .ok ())

/-! ## Runs -/

/-- The calls of a running VM, and the connection that comes and goes. -/
inductive HotLabel where
  | attach (o : QmpOutcomes) (info : HotDeviceInfo)
  | detach (o : QmpOutcomes) (id : String)
  | connect (client : Bool)
  deriving DecidableEq, Repr

/-- One call. -/
def hotStep (l : HotLabel) (vm : VM) : VM :=
  match l with
  | .attach o info => (hotAttach o info vm).1
  | .detach o id => (hotDetach o id vm).1
  | .connect client => { vm with client := client }

/-- One call, as an action. -/
def hotNext (l : HotLabel) : Tla.Action VM := fun vm vm' => vm' = hotStep l vm

def VM.ports (vm : VM) : List RootPort := vm.rootPortsPool.getD []

/-- A VM with root ports, before any device was attached to it. -/
def HotInit (vm : VM) : Prop :=
  vm.hotAttached = [] ∧ vm.rootPortsPool.isSome ∧ ∀ port ∈ vm.ports, port.deviceId = ""

/-- A port is taken exactly when the device recorded on it is on the list. -/
def Accurate (vm : VM) : Prop :=
  (∀ port ∈ vm.ports, port.deviceId ≠ "" → port.deviceId ∈ vm.hotAttached) ∧
    ∀ id ∈ vm.hotAttached, ∃ port ∈ vm.ports, port.deviceId = id

/-- An attach that finds a port puts a device on the list, under an id that is not empty, and a
detach takes no device off it. -/
def Keeps (l : HotLabel) (vm : VM) : Prop :=
  match l with
  | .attach o (.block id) => vm.ports.find? isFree ≠ none →
      id ≠ "" ∧ (vm.client && o.addBackend && o.addDevice) = true
  | .detach o id => id ∈ vm.hotAttached → (vm.client && executeHotDetach o) = false
  | _ => True

/-- Devices on the list have different ids, which are not empty. -/
def Fresh (l : HotLabel) (vm : VM) : Prop :=
  match l with
  | .attach _ (.block id) => id ≠ "" ∧ id ∉ vm.hotAttached
  | .detach _ id => vm.hotAttached.count id ≤ 1
  | _ => True

/-! ## What a call does to the ports -/

section

variable {vm : VM} {o : QmpOutcomes} {id : String} {port : RootPort}

theorem isFree_iff : isFree port = true ↔ port.deviceId = "" := by
  rw [isFree, decide_eq_true_eq]

theorem hotAttach_of_full (h : vm.ports.find? isFree = none) :
    ∃ e, hotAttach o (.block id) vm = (vm, .error e) := by
  unfold hotAttach hotAttachDevice
  unfold VM.ports at h
  cases hpool : vm.rootPortsPool with
  | none => exact ⟨.noPool, rfl⟩
  | some ports =>
    rw [hpool] at h
    have hfull : ports.find? isFree = none := h
    refine ⟨.resourceExhausted, ?_⟩
    simp only [getEmptyRootportSlot, hfull]

/-- The first free port is taken whether or not the device can be plugged in. -/
theorem hotAttach_of_free (h : vm.ports.find? isFree = some port) :
    (hotAttach o (.block id) vm).1 = { vm with
      rootPortsPool := some (updateFirst isFree (RootPort.take id) vm.ports)
      hotAttached := if vm.client && o.addBackend && o.addDevice then vm.hotAttached ++ [id]
        else vm.hotAttached } ∧
      (hotAttach o (.block id) vm).2 ≠ .error .resourceExhausted := by
  unfold hotAttach hotAttachDevice
  unfold VM.ports at h ⊢
  cases hpool : vm.rootPortsPool with
  | none =>
    rw [hpool] at h
    cases h
  | some ports =>
    rw [hpool] at h
    have hfree : ports.find? isFree = some port := h
    simp only [getEmptyRootportSlot, hfree, Option.getD_some]
    rcases hclient : vm.client with _ | _
    · simp
    · rcases hqmp : o.addBackend && o.addDevice with _ | _ <;> simp [hqmp]

/-- An attach is refused for lack of a port when there is a pool and no port of it is free. -/
theorem hotAttach_refused (h : (hotAttach o (.block id) vm).2 = .error .resourceExhausted) :
    ∀ port ∈ vm.ports, port.deviceId ≠ "" := by
  have hfull : vm.ports.find? isFree = none := by
    cases hfind : vm.ports.find? isFree with
    | none => rfl
    | some port => exact absurd h (hotAttach_of_free hfind).2
  intro port hport hempty
  exact List.find?_eq_none.mp hfull port hport (isFree_iff.mpr hempty)

theorem hotDetach_ports : (hotDetach o id vm).1.ports = vm.ports := by
  unfold hotDetach VM.ports
  split
  · rfl
  · split
    · rfl
    · split <;> rfl

/-- A detach takes the device off the list if the hypervisor did its part, and otherwise puts it
back at the end. -/
theorem hotDetach_hotAttached (h : id ∈ vm.hotAttached) :
    (hotDetach o id vm).1.hotAttached =
      if vm.client && executeHotDetach o then vm.hotAttached.erase id
      else vm.hotAttached.erase id ++ [id] := by
  unfold hotDetach
  rw [if_neg (not_not.mpr h)]
  rcases vm.client with _ | _
  · rfl
  · rcases executeHotDetach o with _ | _ <;> rfl

theorem mem_erase_append {ids : List String} {x : String} (h : id ∈ ids) :
    x ∈ ids.erase id ++ [id] ↔ x ∈ ids := by
  have hperm : (ids.erase id ++ [id]).Perm ids :=
    (List.perm_append_singleton id _).trans (List.perm_cons_erase h).symm
  exact hperm.mem_iff

/-! ## Calls that keep the record accurate -/

/-- The record is accurate, and no device on the list has an empty id. -/
structure PortsInv (vm : VM) : Prop where
  accurate : Accurate vm
  named : "" ∉ vm.hotAttached

/-- The record depends on the ports and on which ids are on the list. -/
theorem PortsInv.congr {vm' : VM} (h : PortsInv vm) (hports : vm'.ports = vm.ports)
    (hlist : ∀ x, x ∈ vm'.hotAttached ↔ x ∈ vm.hotAttached) : PortsInv vm' where
  accurate := by
    unfold Accurate
    simp only [hports, hlist]
    exact h.accurate
  named := by
    rw [hlist]
    exact h.named

theorem PortsInv.of_init (h : HotInit vm) : PortsInv vm := by
  obtain ⟨hlist, -, hfree⟩ := h
  constructor
  · constructor
    · intro port hport hne
      exact absurd (hfree port hport) hne
    · intro x hx
      rw [hlist] at hx
      cases hx
  · rw [hlist]
    exact List.not_mem_nil

theorem PortsInv.attach (h : PortsInv vm) (hkeep : Keeps (.attach o (.block id)) vm) :
    PortsInv (hotAttach o (.block id) vm).1 := by
  cases hfind : vm.ports.find? isFree with
  | none =>
    obtain ⟨e, heq⟩ := @hotAttach_of_full vm o id hfind
    rw [heq]
    exact h
  | some port =>
    obtain ⟨hid, hdone⟩ := hkeep (by rw [hfind]; exact Option.some_ne_none port)
    rw [(hotAttach_of_free hfind).1, if_pos hdone]
    refine ⟨⟨?_, ?_⟩, ?_⟩
    · intro p hp hne
      rcases mem_updateFirst hp with hold | ⟨x, -, rfl⟩
      · exact List.mem_append_left _ (h.accurate.1 p hold hne)
      · exact List.mem_append_right _ List.mem_cons_self
    · intro x hx
      rcases List.mem_append.mp hx with hx | hx
      · obtain ⟨p, hp, rfl⟩ := h.accurate.2 x hx
        rcases @mem_updateFirst_of_mem _ isFree (RootPort.take id) _ _ hp with hp' | ⟨hfree, -⟩
        · exact ⟨p, hp', rfl⟩
        · -- the port of an attached device is not a free one
          rw [isFree_iff.mp hfree] at hx
          exact absurd hx h.named
      · obtain rfl := List.mem_singleton.mp hx
        obtain ⟨pre, post, -, -, hup⟩ := @updateFirst_split _ _ (RootPort.take x) _ _ hfind
        refine ⟨port.take x, ?_, rfl⟩
        rw [hup]
        exact List.mem_append_right _ List.mem_cons_self
    · intro hmem
      rcases mem_concat.mp hmem with hmem | hmem
      · exact h.named hmem
      · exact hid hmem.symm

theorem PortsInv.detach (h : PortsInv vm) (hkeep : Keeps (.detach o id) vm) :
    PortsInv (hotDetach o id vm).1 := by
  refine h.congr hotDetach_ports ?_
  intro x
  by_cases hid : id ∈ vm.hotAttached
  · rw [hotDetach_hotAttached hid, hkeep hid]
    exact mem_erase_append hid
  · rw [hotDetach, if_pos hid]

theorem PortsInv.step {l : HotLabel} (h : PortsInv vm) (hkeep : Keeps l vm) :
    PortsInv (hotStep l vm) := by
  cases l with
  | attach o info =>
    cases info with
    | block id => exact h.attach hkeep
    | tap => exact h
    | physical => exact h
    | vhostUser => exact h
    | char => exact h
  | detach o id => exact h.detach hkeep
  | connect client => exact ⟨h.accurate, h.named⟩

/-- A port is taken for a device that is not plugged in. -/
theorem keeps_of_accurate_attach (hfresh : Fresh (.attach o (.block id)) vm)
    (h : Accurate (hotAttach o (.block id) vm).1) : Keeps (.attach o (.block id)) vm := by
  intro hfind
  obtain ⟨port, hfind⟩ := Option.ne_none_iff_exists'.mp hfind
  refine ⟨hfresh.1, ?_⟩
  by_contra hfail
  rw [(hotAttach_of_free hfind).1, if_neg hfail] at h
  obtain ⟨pre, post, -, -, hup⟩ := @updateFirst_split _ _ (RootPort.take id) _ _ hfind
  have htaken : port.take id ∈ updateFirst isFree (RootPort.take id) vm.ports := by
    rw [hup]
    exact List.mem_append_right _ List.mem_cons_self
  exact hfresh.2 (h.1 (port.take id) htaken hfresh.1)

/-- The port of a device that was detached stays taken. -/
theorem keeps_of_accurate_detach (hinv : PortsInv vm) (hfresh : Fresh (.detach o id) vm)
    (h : Accurate (hotDetach o id vm).1) : Keeps (.detach o id) vm := by
  intro hid
  by_contra hdone
  rw [Bool.not_eq_false] at hdone
  obtain ⟨port, hport, rfl⟩ := hinv.accurate.2 id hid
  have hne : port.deviceId ≠ "" := by
    intro hempty
    rw [hempty] at hid
    exact hinv.named hid
  rw [← @hotDetach_ports vm o port.deviceId] at hport
  have hmem := h.1 port hport hne
  rw [hotDetach_hotAttached hid, if_pos hdone] at hmem
  have hcount : (vm.hotAttached.erase port.deviceId).count port.deviceId = 0 := by
    rw [List.count_erase_self]
    have : vm.hotAttached.count port.deviceId ≤ 1 := hfresh
    omega
  exact List.count_eq_zero.mp hcount hmem

/-- As long as no attach fails once it has a port and no device is detached, a port is taken exactly
when the device recorded on it is on the list, and an attach is refused for lack of a port only
when every port holds a device of the list. The first call of another kind, of devices with
different ids, ends it. -/
theorem ports_accurate (vm : VM)
    (h : Reachable HotInit (Guarded Keeps hotNext) vm) :
    Accurate vm ∧
      (∀ o id, (hotAttach o (.block id) vm).2 = .error .resourceExhausted →
        ∀ port ∈ vm.ports, port.deviceId ∈ vm.hotAttached) ∧
      ∀ l, Fresh l vm → (Accurate (hotStep l vm) ↔ Keeps l vm) := by
  have hinv : PortsInv vm := by
    apply h.guarded_invariant
    · intro vm hinit
      exact PortsInv.of_init hinit
    · rintro l vm vm' hkeep rfl hinv
      exact hinv.step hkeep
  refine ⟨hinv.accurate, ?_, ?_⟩
  · intro o id hrefused port hport
    exact hinv.accurate.1 port hport (hotAttach_refused hrefused port hport)
  · intro l hfresh
    refine ⟨?_, fun hkeep => (hinv.step hkeep).accurate⟩
    intro haccurate
    cases l with
    | attach o info =>
      cases info with
      | block id => exact keeps_of_accurate_attach hfresh haccurate
      | tap => trivial
      | physical => trivial
      | vhostUser => trivial
      | char => trivial
    | detach o id => exact keeps_of_accurate_detach hinv hfresh haccurate
    | connect client => trivial

end

/-- A VM with two devices of its own, ten root ports and a connection. -/
def portsVm : VM := { tenPorts with client := true }

theorem hotInit_portsVm : HotInit portsVm := ⟨by decide, by decide, by decide⟩

theorem ports_accurate_oneDisk :
    (hotStep (.attach .accepted (.block "blk1")) portsVm).ports.map RootPort.deviceId =
        "blk1" :: List.replicate 9 "" ∧
      Accurate (hotStep (.attach .accepted (.block "blk1")) portsVm) := by
  have hr : Reachable HotInit (Guarded Keeps hotNext)
      (hotStep (.attach .accepted (.block "blk1")) portsVm) :=
    (Reachable.init hotInit_portsVm).step
      ⟨.attach .accepted (.block "blk1"), fun _ => ⟨by decide, by decide⟩, rfl⟩
  exact ⟨by decide, (ports_accurate _ hr).1⟩

/-! ## A port is never given back -/

/-- A sequence of calls. -/
def hotRun (ls : List HotLabel) (vm : VM) : VM := ls.foldl (fun vm l => hotStep l vm) vm

def asksPort : HotLabel → Bool
  | .attach _ (.block id) => id ≠ ""
  | _ => false

def freePorts (vm : VM) : ℕ := vm.ports.countP isFree

section

variable {vm : VM}

theorem reachable_hotRun (ls : List HotLabel)
    (h : Reachable HotInit (AnyStep hotNext) vm) :
    Reachable HotInit (AnyStep hotNext) (hotRun ls vm) := by
  induction ls generalizing vm with
  | nil => exact h
  | cons l ls ih => exact ih (h.anyStep l rfl)

theorem freePorts_attach (o : QmpOutcomes) (id : String) :
    freePorts (hotAttach o (.block id) vm).1 = freePorts vm - if id ≠ "" then 1 else 0 := by
  unfold freePorts
  cases hfind : vm.ports.find? isFree with
  | none =>
    obtain ⟨e, heq⟩ := @hotAttach_of_full vm o id hfind
    have hzero : vm.ports.countP isFree = 0 := by
      rw [List.countP_eq_zero]
      exact List.find?_eq_none.mp hfind
    rw [heq, hzero, Nat.zero_sub]
  | some port =>
    have hfree : isFree port = true := List.find?_some hfind
    have hcount := @countP_updateFirst _ isFree isFree (RootPort.take id) _ _ hfind
    rw [(hotAttach_of_free hfind).1]
    change (updateFirst isFree (RootPort.take id) vm.ports).countP isFree = _
    rw [List.countP_singleton, List.countP_singleton, if_pos hfree] at hcount
    by_cases hid : id = ""
    · have htake : isFree (port.take id) = true := isFree_iff.mpr hid
      rw [if_pos htake] at hcount
      rw [if_neg (not_not.mpr hid)]
      omega
    · have htake : ¬isFree (port.take id) = true := fun h => hid (isFree_iff.mp h)
      rw [if_neg htake] at hcount
      rw [if_pos hid]
      omega

/-- Every attempt to attach a device costs a port, and nothing gives one back. -/
theorem freePorts_step (l : HotLabel) :
    freePorts (hotStep l vm) = freePorts vm - if asksPort l then 1 else 0 := by
  cases l with
  | attach o info =>
    cases info with
    | block id =>
      rw [hotStep, freePorts_attach]
      simp only [asksPort, decide_eq_true_eq]
    | tap => rfl
    | physical => rfl
    | vhostUser => rfl
    | char => rfl
  | detach o id =>
    rw [hotStep, freePorts, hotDetach_ports]
    rfl
  | connect client => rfl

theorem freePorts_run (ls : List HotLabel) :
    freePorts (hotRun ls vm) = freePorts vm - ls.countP asksPort := by
  induction ls generalizing vm with
  | nil => rfl
  | cons l ls ih =>
    have hrun : hotRun (l :: ls) vm = hotRun ls (hotStep l vm) := rfl
    rw [hrun, ih, freePorts_step, List.countP_cons]
    omega

/-- After as many attempts as there are ports every attach fails, whichever devices were detached
in between. -/
theorem attach_fails_after_ports_used (ls : List HotLabel)
    (hused : vm.ports.length ≤ ls.countP asksPort) (o : QmpOutcomes) (id : String) :
    ∃ e, hotAttach o (.block id) (hotRun ls vm) = (hotRun ls vm, .error e) := by
  have hnone : freePorts (hotRun ls vm) = 0 := by
    have hle : freePorts vm ≤ vm.ports.length := List.countP_le_length
    rw [freePorts_run]
    omega
  apply hotAttach_of_full
  exact List.find?_eq_none.mpr (List.countP_eq_zero.mp hnone)

end

def diskCycle : List HotLabel :=
  [.attach .accepted (.block "blk1"), .detach .accepted "blk1"]

theorem attach_fails_after_ten_cycles :
    let vm := hotRun (List.replicate 10 diskCycle).flatten portsVm
    ∃ e, hotAttach .accepted (.block "blk2") vm = (vm, .error e) :=
  attach_fails_after_ports_used _ (by decide) _ _

/-- Ten times a disk is attached and detached, without a failure. No device is on the list, every
port is taken, and the next attach is refused for lack of a port. -/
theorem ports_used_up :
    Reachable HotInit (AnyStep hotNext)
        (hotRun (List.replicate 10 diskCycle).flatten portsVm) ∧
      (hotRun (List.replicate 10 diskCycle).flatten portsVm).hotAttached = [] ∧
      ¬Accurate (hotRun (List.replicate 10 diskCycle).flatten portsVm) ∧
      (hotAttach .accepted (.block "blk2")
        (hotRun (List.replicate 10 diskCycle).flatten portsVm)).2 = .error .resourceExhausted := by
  refine ⟨reachable_hotRun _ (.init hotInit_portsVm), by decide, ?_, by decide⟩
  unfold Accurate
  decide

end Kuasar.Hypervisor.Stratovirt

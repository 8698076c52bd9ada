import Kuasar.Hypervisor.Bus
import Kuasar.Tla.Core

/-!
# Hypervisor.StratovirtBus — the root bus of a StratoVirt VM

The devices of a StratoVirt VM are put on slots of the PCIe root bus, each on the first empty
one, and get the number of their slot as address on the command line. The first slot is reserved.
After the devices of the VM itself a row of root ports is added, which hot-plugged devices go
behind; a pool keeps their numbers.

The slots are taken in order and never given back, so that the number that `create_pcie_root_ports`
computes for a port is that of the slot the port gets (`root_bus_addresses`).
-/

namespace Kuasar.Hypervisor.Stratovirt

open Slots Tla

/-! ## Devices -/

/-- A root port. `index` is what the pool reports for a device behind it, `addr` the address on
the command line. -/
structure RootPort where
  id : String
  port : String
  busName : String
  addr : String
  multiFunction : Option Bool
  deviceId : String
  index : ℕ
  deriving DecidableEq, Repr

/-- `RootPort::new`. -/
def RootPort.new (id : String) (port index : ℕ) (bus : String) (multiFunc : Option Bool) :
    RootPort where
  id := id
  port := withBase port
  busName := bus
  addr := ""
  multiFunction := multiFunc
  deviceId := ""
  index := index

/-- A device of the command line: a root port, or another one, with its address. A device that is
not on the root bus has an empty one, and then the command line names no bus. -/
inductive Device where
  | rootPort (port : RootPort)
  | other (id addr : String)
  deriving DecidableEq, Repr

namespace Device

/-- `id`. -/
def id : Device → String
  | rootPort port => port.id
  | other id _ => id

/-- The address on the command line. -/
def addr : Device → String
  | rootPort port => port.addr
  | other _ addr => addr

/-- `set_device_addr`. -/
def setDeviceAddr (n : ℕ) : Device → Device
  | rootPort port => rootPort { port with addr := withBase n }
  | other id _ => other id (withBase n)

def OnRootBus (d : Device) : Prop := d.addr ≠ ""

instance (d : Device) : Decidable d.OnRootBus := inferInstanceAs (Decidable (d.addr ≠ ""))

end Device

/-- A StratoVirt VM. `buses` are the buses of its devices, `rootBus` the slots of the root bus if
it has one, and `rootPortsPool` the root ports for hot-plugged devices. -/
structure VM where
  devices : List Device
  buses : List Bus
  rootBus : Option (List (Option String))
  rootPortsPool : Option (List RootPort)
  hotAttached : List String
  client : Bool
  deriving DecidableEq, Repr

/-- Why a device could not be put on the bus. Without a root bus the search for a slot panics. -/
inductive BusError where
  | noRootBus
  | rootBusFull
  | tooFewSlots (left required : ℕ)
  deriving DecidableEq, Repr

/-! ## Putting devices on the bus -/

/-- `PCIE_ROOTBUS_CAPACITY`. -/
def rootBusCapacity : ℕ := 32

/-- `PCIE_ROOTPORT_CAPACITY`. -/
def rootPortCapacity : ℕ := 10

/-- `create_pcie_root_bus`. -/
def createPcieRootBus : List (Option String) :=
  (List.replicate rootBusCapacity none).set 0 (some "reserved")

/-- `get_empty_pcie_slot_index`. -/
def getEmptyPcieSlotIndex (vm : VM) : Except BusError ℕ :=
  match vm.rootBus with
  | none => .error .noRootBus
  | some slots =>
    match firstEmpty 0 slots with
    | none => .error .rootBusFull
    | some index => .ok index

/-- `attach_to_bus`. -/
def attachToBus (device : Device) (vm : VM) : VM × Option BusError :=
  match vm.rootBus with
  | none => ({ vm with devices := vm.devices ++ [device] }, none)
  | some slots =>
    match getEmptyPcieSlotIndex vm with
    | .error e => (vm, some e)
    | .ok index =>
      ({ vm with
        rootBus := some (slots.set index (some device.id))
        devices := vm.devices ++ [device.setDeviceAddr index] }, none)

/-- `attach_device`, for devices that are not on the root bus. -/
def attachDevice (device : Device) (vm : VM) : VM :=
  { vm with devices := vm.devices ++ [device] }

/-- The root port of number `i`, for the slots from `first` on. -/
def rootPort (first i : ℕ) : RootPort :=
  .new ("pcie." ++ toString i) (first + i - 1) (first + i - 1) "pcie.0" none

/-- The loop of `create_pcie_root_ports`; `ports` are those made so far. -/
def addRootPorts (first : ℕ) : List ℕ → List RootPort → VM → VM × Except BusError (List RootPort)
  | [], ports, vm => (vm, .ok ports)
  | i :: is, ports, vm =>
    match attachToBus (.rootPort (rootPort first i)) vm with
    | (vm, some e) => (vm, .error e)
    | (vm, none) => addRootPorts first is (ports ++ [rootPort first i]) vm

/-- `create_pcie_root_ports`. -/
def createPcieRootPorts (capSize : ℕ) (vm : VM) : VM × Option BusError :=
  match getEmptyPcieSlotIndex vm with
  | .error e => (vm, some e)
  | .ok first =>
    if rootBusCapacity - first < capSize then
      (vm, some (.tooFewSlots (rootBusCapacity - first) capSize))
    else
      match addRootPorts first (List.range' 1 capSize) [] vm with
      | (vm, .error e) => (vm, some e)
      | (vm, .ok ports) => ({ vm with rootPortsPool := some ports }, none)

/-! ## Runs -/

/-- What is done to a VM before it starts. A device has no address when it is made. -/
inductive ColdLabel where
  | attachToBus (id : String)
  | attachDevice (id : String)
  | createRootPorts (capSize : ℕ)

/-- One call. -/
def coldNext : ColdLabel → Tla.Action VM
  | .attachToBus id => fun vm vm' => vm' = (attachToBus (.other id "") vm).1
  | .attachDevice id => fun vm vm' => vm' = attachDevice (.other id "") vm
  | .createRootPorts capSize => fun vm vm' => vm' = (createPcieRootPorts capSize vm).1

/-- A VM without a device; that of a microVM has no root bus. -/
def ColdInit (vm : VM) : Prop :=
  vm.devices = [] ∧ (vm.rootBus = none ∨ vm.rootBus = some createPcieRootBus)

/-! ## The slots that are taken -/

/-- The first `n` slots are taken, the others are empty. -/
def Filled (n : ℕ) (slots : List (Option String)) : Prop :=
  n ≤ rootBusCapacity ∧ ∀ i : ℕ, slots[i]? = some none ↔ n ≤ i ∧ i < rootBusCapacity

theorem filled_createPcieRootBus : Filled 1 createPcieRootBus := by
  refine ⟨by decide, ?_⟩
  intro i
  rw [createPcieRootBus, List.getElem?_set]
  by_cases hi : 0 = i
  · rw [← hi]
    simp [rootBusCapacity]
  · rw [if_neg hi, List.getElem?_replicate]
    split <;> simp <;> omega

theorem Filled.firstEmpty_eq {n : ℕ} {slots : List (Option String)} (h : Filled n slots) :
    firstEmpty 0 slots = if n < rootBusCapacity then some n else none := by
  cases hfind : firstEmpty 0 slots with
  | none =>
    rw [if_neg]
    intro hn
    exact firstEmpty_eq_none hfind (Nat.zero_le n) ((h.2 n).mpr ⟨le_rfl, hn⟩)
  | some i =>
    obtain ⟨-, hempty, hbefore⟩ := firstEmpty_eq_some hfind
    obtain ⟨hni, hi⟩ := (h.2 i).mp hempty
    have hn : n < rootBusCapacity := by omega
    rw [if_pos hn, Option.some.injEq]
    by_contra hne
    exact hbefore n (Nat.zero_le n) (by omega) ((h.2 n).mpr ⟨le_rfl, hn⟩)

theorem Filled.set {n : ℕ} {slots : List (Option String)} (h : Filled n slots)
    (hn : n < rootBusCapacity) (id : String) : Filled (n + 1) (slots.set n (some id)) := by
  have hlen : n < slots.length :=
    (List.getElem?_eq_some_iff.mp ((h.2 n).mpr ⟨le_rfl, hn⟩)).1
  refine ⟨by omega, ?_⟩
  intro i
  by_cases hi : i = n
  · rw [hi, List.getElem?_set_self hlen]
    simp
  · rw [List.getElem?_set_ne (Ne.symm hi), h.2 i]
    omega

/-- The addresses of the slots from `first` on. -/
def addresses (first count : ℕ) : List String := (List.range' first count).map withBase

theorem withBase_inj {n m : ℕ} : withBase n = withBase m ↔ n = m := by
  rw [withBase, withBase, String.append_right_inj, String.ofList_inj, Hex.digits_inj]

theorem withBase_ne_empty (n : ℕ) : withBase n ≠ "" := by
  intro h
  have hlen := congrArg String.length h
  simp [withBase] at hlen

/-- The addresses of the devices on the root bus, in the order of the command line. -/
def busAddresses (devices : List Device) : List String :=
  (devices.filter fun d => decide d.OnRootBus).map Device.addr

theorem busAddresses_append (devices devices' : List Device) :
    busAddresses (devices ++ devices') = busAddresses devices ++ busAddresses devices' := by
  rw [busAddresses, List.filter_append, List.map_append]
  rfl

theorem addr_setDeviceAddr (n : ℕ) (d : Device) : (d.setDeviceAddr n).addr = withBase n := by
  cases d <;> rfl

theorem busAddresses_setDeviceAddr (n : ℕ) (d : Device) :
    busAddresses [d.setDeviceAddr n] = [withBase n] := by
  have hon : (d.setDeviceAddr n).OnRootBus := by
    rw [Device.OnRootBus, addr_setDeviceAddr]
    exact withBase_ne_empty n
  simp [busAddresses, hon, addr_setDeviceAddr]

/-- The devices on the root bus are on the slots from the first to the `n`-th. -/
structure Rows (n : ℕ) (slots : List (Option String)) (devices : List Device) : Prop where
  pos : 1 ≤ n
  filled : Filled n slots
  addrs : busAddresses devices = addresses 1 (n - 1)

/-- The root bus of a VM that has one. -/
def Inv (vm : VM) : Prop :=
  match vm.rootBus with
  | none => busAddresses vm.devices = []
  | some slots => ∃ n, Rows n slots vm.devices

section

variable {vm : VM} {slots : List (Option String)} {n : ℕ}

theorem getEmptyPcieSlotIndex_eq (hbus : vm.rootBus = some slots) (h : Filled n slots) :
    getEmptyPcieSlotIndex vm =
      if n < rootBusCapacity then .ok n else .error .rootBusFull := by
  unfold getEmptyPcieSlotIndex
  simp only [hbus, h.firstEmpty_eq]
  by_cases hn : n < rootBusCapacity
  · rw [if_pos hn, if_pos hn]
  · rw [if_neg hn, if_neg hn]

/-- A device goes on the next slot, if there is one. -/
theorem attachToBus_eq (hbus : vm.rootBus = some slots) (h : Filled n slots) (device : Device) :
    attachToBus device vm = if n < rootBusCapacity then
      ({ vm with
        rootBus := some (slots.set n (some device.id))
        devices := vm.devices ++ [device.setDeviceAddr n] }, none)
      else (vm, some .rootBusFull) := by
  unfold attachToBus
  simp only [hbus, getEmptyPcieSlotIndex_eq hbus h]
  by_cases hn : n < rootBusCapacity
  · rw [if_pos hn, if_pos hn]
  · rw [if_neg hn, if_neg hn]

theorem Rows.snoc {devices : List Device} (h : Rows n slots devices) (hn : n < rootBusCapacity)
    (device : Device) :
    Rows (n + 1) (slots.set n (some device.id)) (devices ++ [device.setDeviceAddr n]) where
  pos := by omega
  filled := h.filled.set hn device.id
  addrs := by
    have hpos := h.pos
    obtain ⟨k, rfl⟩ : ∃ k, n = 1 + k := ⟨n - 1, by omega⟩
    rw [busAddresses_append, h.addrs, busAddresses_setDeviceAddr, addresses, addresses,
      show 1 + k + 1 - 1 = k + 1 by omega, show 1 + k - 1 = k by omega, List.range'_concat,
      List.map_append, Nat.one_mul, List.map_singleton]

def onCommandLine (port : RootPort) : Device := .rootPort { port with addr := withBase port.index }

/-- The loop adds all its ports, each on the slot it is numbered for. -/
theorem addRootPorts_eq {first i : ℕ} (count : ℕ) (ports : List RootPort) (hpos : 1 ≤ i)
    (hbus : vm.rootBus = some slots) (h : Rows (first + i - 1) slots vm.devices)
    (hroom : first + i - 1 + count ≤ rootBusCapacity) :
    ∃ slots', Rows (first + i - 1 + count) slots'
        (vm.devices ++ ((List.range' i count).map (rootPort first)).map onCommandLine) ∧
      addRootPorts first (List.range' i count) ports vm = ({ vm with
        rootBus := some slots'
        devices := vm.devices ++ ((List.range' i count).map (rootPort first)).map onCommandLine },
        .ok (ports ++ (List.range' i count).map (rootPort first))) := by
  induction count generalizing i ports vm slots with
  | zero =>
    refine ⟨slots, by simpa using h, ?_⟩
    simp [addRootPorts, ← hbus]
  | succ count ih =>
    have hlt : first + i - 1 < rootBusCapacity := by omega
    have hattach := attachToBus_eq hbus h.filled (.rootPort (rootPort first i))
    rw [if_pos hlt] at hattach
    have hnext : first + (i + 1) - 1 = first + i - 1 + 1 := by omega
    have hrows := h.snoc hlt (.rootPort (rootPort first i))
    rw [← hnext] at hrows
    let vm₁ : VM := { vm with
      rootBus := some (slots.set (first + i - 1) (some (rootPort first i).id))
      devices := vm.devices ++ [onCommandLine (rootPort first i)] }
    obtain ⟨slots', hrows', hloop⟩ := @ih vm₁ _ (i + 1) (ports ++ [rootPort first i]) (by omega)
      rfl hrows (by omega)
    refine ⟨slots', ?_, ?_⟩
    · have hcount : first + i - 1 + (count + 1) = first + (i + 1) - 1 + count := by omega
      rw [hcount, List.range'_succ, List.map_cons, List.map_cons]
      simpa [vm₁] using hrows'
    · rw [List.range'_succ]
      simp only [addRootPorts, hattach]
      refine hloop.trans ?_
      simp [vm₁]

/-- Creating root ports changes nothing, or adds all of them on the next slots. -/
theorem createPcieRootPorts_cases (h : Inv vm) (capSize : ℕ) :
    (∃ e, createPcieRootPorts capSize vm = (vm, some e)) ∨
      ∃ ports first m slots', ports = (List.range' 1 capSize).map (rootPort first) ∧
        Rows m slots' (vm.devices ++ ports.map onCommandLine) ∧
        createPcieRootPorts capSize vm = ({ vm with
          rootBus := some slots'
          devices := vm.devices ++ ports.map onCommandLine
          rootPortsPool := some ports }, none) := by
  unfold Inv at h
  unfold createPcieRootPorts
  cases hbus : vm.rootBus with
  | none =>
    refine .inl ⟨.noRootBus, ?_⟩
    unfold getEmptyPcieSlotIndex
    rw [hbus]
  | some slots =>
    rw [hbus] at h
    obtain ⟨n, hrows⟩ := h
    rw [getEmptyPcieSlotIndex_eq hbus hrows.filled]
    by_cases hn : n < rootBusCapacity
    · rw [if_pos hn]
      dsimp only
      split
      · exact .inl ⟨_, rfl⟩
      · obtain ⟨slots', hrows', hloop⟩ := addRootPorts_eq capSize [] le_rfl hbus
          (show Rows (n + 1 - 1) slots vm.devices by simpa using hrows) (by omega)
        refine .inr ⟨_, n, _, slots', rfl, hrows', ?_⟩
        rw [hloop]
        rfl
    · rw [if_neg hn]
      exact .inl ⟨.rootBusFull, rfl⟩

theorem Inv.of_init (h : ColdInit vm) : Inv vm := by
  obtain ⟨hdev, hbus | hbus⟩ := h <;> rw [Inv, hbus, hdev]
  · rfl
  · exact ⟨1, le_rfl, filled_createPcieRootBus, rfl⟩

theorem Inv.attachToBus (h : Inv vm) (id : String) :
    Inv (attachToBus (.other id "") vm).1 := by
  unfold Inv at h
  cases hbus : vm.rootBus with
  | none =>
    rw [hbus] at h
    simp only [Stratovirt.attachToBus, hbus, Inv]
    rw [busAddresses_append, h]
    rfl
  | some slots =>
    rw [hbus] at h
    obtain ⟨n, hrows⟩ := h
    rw [attachToBus_eq hbus hrows.filled]
    split
    · rename_i hn
      exact ⟨n + 1, hrows.snoc hn _⟩
    · rw [Inv, hbus]
      exact ⟨n, hrows⟩

theorem Inv.attachDevice (h : Inv vm) (id : String) : Inv (attachDevice (.other id "") vm) := by
  have haddrs : busAddresses (vm.devices ++ [Device.other id ""]) = busAddresses vm.devices := by
    rw [busAddresses_append]
    exact List.append_nil _
  unfold Inv at h ⊢
  unfold Stratovirt.attachDevice
  cases hbus : vm.rootBus with
  | none =>
    rw [hbus] at h
    exact haddrs.trans h
  | some slots =>
    rw [hbus] at h
    obtain ⟨n, hrows⟩ := h
    exact ⟨n, hrows.pos, hrows.filled, haddrs.trans hrows.addrs⟩

theorem Inv.step {l : ColdLabel} {vm' : VM} (hstep : coldNext l vm vm') (h : Inv vm) : Inv vm' := by
  cases l with
  | attachToBus id =>
    cases hstep
    exact h.attachToBus id
  | attachDevice id =>
    cases hstep
    exact h.attachDevice id
  | createRootPorts capSize =>
    cases hstep
    rcases createPcieRootPorts_cases h capSize with ⟨e, heq⟩ | ⟨ports, first, m, slots', -, hrows,
      heq⟩
    · rw [heq]
      exact h
    · rw [heq]
      exact ⟨m, hrows⟩

theorem nodup_addresses (first count : ℕ) : (addresses first count).Nodup :=
  List.Nodup.map (fun _ _ h => withBase_inj.mp h) List.nodup_range'

/-- However devices were put on a VM: those on the root bus have different addresses, none of them
that of the reserved slot. Creating root ports fails and changes nothing, or adds all of them, and
then the number that the pool has of a port is the address of the port on the command line. -/
theorem root_bus_addresses (vm : VM) (h : Reachable ColdInit (AnyStep coldNext) vm) :
    (busAddresses vm.devices).Nodup ∧ withBase 0 ∉ busAddresses vm.devices ∧
      ∀ capSize, (∃ e, createPcieRootPorts capSize vm = (vm, some e)) ∨
        ∃ vm' ports, createPcieRootPorts capSize vm = (vm', none) ∧
          vm'.rootPortsPool = some ports ∧ ports.length = capSize ∧
          vm'.devices = vm.devices ++ ports.map onCommandLine := by
  have hinv : Inv vm := by
    apply h.invariant
    · intro vm hvm
      exact Inv.of_init hvm
    · rintro vm vm' ⟨l, hl⟩ hinv
      exact hinv.step hl
  have haddrs : ∃ count, busAddresses vm.devices = addresses 1 count := by
    unfold Inv at hinv
    cases hbus : vm.rootBus with
    | none =>
      rw [hbus] at hinv
      exact ⟨0, hinv⟩
    | some slots =>
      rw [hbus] at hinv
      obtain ⟨n, hrows⟩ := hinv
      exact ⟨n - 1, hrows.addrs⟩
  obtain ⟨count, haddrs⟩ := haddrs
  rw [haddrs]
  refine ⟨nodup_addresses 1 count, ?_, ?_⟩
  · intro hmem
    obtain ⟨k, hk, heq⟩ := List.mem_map.mp hmem
    rw [withBase_inj.mp heq, List.mem_range'] at hk
    obtain ⟨j, -, hj⟩ := hk
    omega
  · intro capSize
    rcases createPcieRootPorts_cases hinv capSize with hfail | ⟨ports, first, m, slots', hports, -,
      heq⟩
    · exact .inl hfail
    · have hlen : ports.length = capSize := by simp [hports]
      exact .inr ⟨_, ports, heq, rfl, hlen, rfl⟩

end

def bareVm : VM := ⟨[], [], some createPcieRootBus, none, [], false⟩

def tenPorts : VM :=
  (createPcieRootPorts rootPortCapacity
    (attachToBus (.other "virtio-serial0" "") (attachToBus (.other "rng0" "") bareVm).1).1).1

theorem root_bus_addresses_tenPorts :
    busAddresses tenPorts.devices = addresses 1 12 ∧ (busAddresses tenPorts.devices).Nodup := by
  have hr : Reachable ColdInit (AnyStep coldNext) tenPorts :=
    (((Reachable.init ⟨rfl, .inr rfl⟩).anyStep (.attachToBus "rng0") rfl).anyStep
      (.attachToBus "virtio-serial0") rfl).anyStep (.createRootPorts rootPortCapacity) rfl
  exact ⟨by decide, (root_bus_addresses tenPorts hr).1⟩

end Kuasar.Hypervisor.Stratovirt

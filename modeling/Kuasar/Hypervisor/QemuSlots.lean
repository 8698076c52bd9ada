import Kuasar.Data.Delimited
import Kuasar.Hypervisor.Bus
import Kuasar.Tla.Core

/-!
# Hypervisor.QemuSlots — devices that are hot-attached to a QEMU VM

A device is attached on the first empty slot of a bus of its kind: QMP commands add its backend
and its front end, and when they have succeeded the slot is taken and the device put on the list
of the hot-attached ones. Detaching it goes the other way; a device whose commands failed is put
back on the list. The caller gets an address under which the guest finds a block device.

`hot_attached_devices_hold_slots`: after any sequence of attaches and detaches, with any of the
commands failing, the occupied slots are those of the devices on the list, one each, and the
addresses that the callers got for the block devices are different and name the place that QEMU was
told.
-/

namespace Kuasar.Hypervisor.Qemu

open Slots FirstMatch
open Storages (BusType)

/-! ## Devices and commands -/

inductive BlockDriver where
  | virtioBlk
  | virtioMmio
  | virtioScsi
  deriving DecidableEq, Repr

/-- `to_bus_type`. -/
def BlockDriver.toBusType : BlockDriver → BusType
  | .virtioBlk => .pci
  | .virtioMmio => .null
  | .virtioScsi => .scsi

/-- What is behind a character device. -/
inductive CharBackendType where
  | pipe (path : String)
  | socket (path : String)
  deriving DecidableEq, Repr

inductive DeviceInfo where
  | block (id path : String) (readOnly : Bool)
  | tap
  | physical
  | vhostUser
  | char (id chardevId name : String) (backend : CharBackendType)
  deriving DecidableEq, Repr

/-- The devices that QEMU can take while it runs: `VirtioBlockDevice` and `CharDevice`. -/
inductive Device where
  | block (id file : String) (readonly : Bool)
  | char (id chardevId name : String) (backend : CharBackendType)
  deriving DecidableEq, Repr

/-- `id`. -/
def Device.id : Device → String
  | .block id _ _ => id
  | .char id _ _ _ => id

inductive Value where
  | str (s : String)
  | num (n : ℕ)
  deriving DecidableEq, Repr

/-- The command `device_add`. -/
structure DeviceAdd where
  driver : String
  bus : Option String
  id : String
  arguments : List (String × Value)
  deriving DecidableEq, Repr

def blockDriverOn : BusType → String
  | .ccw => "virtio-blk-ccw"
  | .scsi => "scsi-hd"
  | _ => "virtio-blk-pci"

/-- `to_device_add`. A character device names no bus: QEMU finds a port for it. -/
def Device.toDeviceAdd (busType : BusType) (busId : String) (index : ℕ) : Device → DeviceAdd
  | .block id _ _ => {
      driver := blockDriverOn busType
      bus := some (if busType = .scsi then busId ++ ".0" else busId)
      id := "virtio-" ++ id
      arguments := ("drive", .str id) ::
        if busType = .scsi then [("scsi-id", .num (index / 256)), ("lun", .num (index % 256))]
        else [("addr", .str (twoDigits index))] }
  | .char id chardevId name _ => {
      driver := "virtserialport"
      bus := none
      id := id
      arguments := [("name", .str name), ("chardev", .str chardevId)] }

/-- `execute_hot_attach`: the `device_add` that QEMU has executed. The backend of a device that
could not be added is deleted again, and an error of that is logged. Only a pipe can be added as a
character device. -/
def Device.executeHotAttach (o : QmpOutcomes) (busType : BusType) (busId : String) (index : ℕ)
    (device : Device) : Option DeviceAdd :=
  match device with
  | .char _ _ _ (.socket _) => none
  | _ =>
    if o.addBackend && o.addDevice then some (device.toDeviceAdd busType busId index) else none

/-! ## The VM -/

/-- A device on the list of the hot-attached ones. Kept for the proofs: its position, the command
that was executed for it, and the address that was returned. -/
structure HotDevice where
  device : Device
  place : ℕ × ℕ
  sent : DeviceAdd
  addr : String
  deriving DecidableEq, Repr

def HotDevice.id (d : HotDevice) : String := d.device.id

/-- A QEMU VM, as far as its buses go; `client` says whether there is a connection. -/
structure VM where
  buses : List Bus
  hotAttached : List HotDevice
  blockDriver : BlockDriver
  client : Bool
  deriving DecidableEq, Repr

/-- Why a call failed. -/
inductive HotplugError where
  | resourceExhausted (busType : BusType)
  | noClient
  | qmp
  | noBus (busId : String)
  | unimplemented (what : String)
  deriving DecidableEq, Repr

/-- `empty_slot` of the VM: on the first bus of the type that has one. -/
def emptySlot (busType : BusType) (buses : List Bus) : Option (String × ℕ) :=
  (buses.filter fun bus => bus.type = busType).findSome? fun bus =>
    bus.emptySlot.map fun index => (bus.id, index)

/-- `attach_to_bus`: the buses, the address of the bus, and the number of the bus. -/
def attachToBus (busId : String) (index : ℕ) (deviceId : String) (buses : List Bus) :
    Option (List Bus × String × ℕ) :=
  match buses.findIdx? (isBus busId) with
  | none => none
  | some b =>
    buses[b]?.map fun bus =>
      (updateFirst (isBus busId) (Bus.occupy index deviceId) buses, bus.busAddr, b)

def guestAddress (driver : BlockDriver) (busAddr : String) (index : ℕ) :
    Except HotplugError String :=
  match driver with
  | .virtioBlk => .ok ("0000:" ++ busAddr ++ ":" ++ twoDigits index ++ ".0")
  | .virtioMmio => .error (.unimplemented "virtio-mmio not implemented yet")
  | .virtioScsi => .ok (toString (index / 256) ++ ":" ++ toString (index % 256))

def isDevice (id : String) (d : HotDevice) : Bool := d.id = id

/-- `hot_detach`. A device whose commands failed goes back, to the end of the list. -/
def hotDetach (o : QmpOutcomes) (id : String) (vm : VM) : VM × Except HotplugError Unit :=
  match vm.hotAttached.find? (isDevice id) with
  | none => (vm, .ok ())
  | some d =>
    let rest := vm.hotAttached.eraseP (isDevice id)
    if !vm.client then ({ vm with hotAttached := rest ++ [d] }, .error .noClient)
    else if !executeHotDetach o then ({ vm with hotAttached := rest ++ [d] }, .error .qmp)
    else ({ vm with hotAttached := rest, buses := detachFromBus id vm.buses }, .ok ())

/-- What the caller of `hot_attach` gets for a device. -/
def returned (vm : VM) (device : Device) (busAddr : String) (index : ℕ) :
    Except HotplugError String :=
  match device with
  | .block _ _ _ => guestAddress vm.blockDriver busAddr index
  | .char _ _ name _ => .ok name

/-- `hot_attach_device`, and what `hot_attach` makes of its result; with the `device_add` that was
executed. -/
def hotAttachDevice (o : QmpOutcomes) (device : Device) (busType : BusType) (vm : VM) :
    VM × Option DeviceAdd × Except HotplugError String :=
  match emptySlot busType vm.buses with
  | none => (vm, none, .error (.resourceExhausted busType))
  | some (busId, index) =>
    if !vm.client then (vm, none, .error .noClient)
    else
      match device.executeHotAttach o busType busId index with
      | none => (vm, none, .error .qmp)
      | some sent =>
        match attachToBus busId index device.id vm.buses with
        | none =>
          match hotDetach o device.id vm with
          | (vm, .error e) => (vm, some sent, .error e)
          | (vm, .ok _) => (vm, some sent, .error (.noBus busId))
        | some (buses, busAddr, b) =>
          let result := returned vm device busAddr index
          ({ vm with
            buses := buses
            hotAttached := vm.hotAttached ++
              [⟨device, (b, index), sent, result.toOption.getD ""⟩] }, some sent, result)

/-- `hot_attach`. -/
def hotAttach (o : QmpOutcomes) (info : DeviceInfo) (vm : VM) :
    VM × Option DeviceAdd × Except HotplugError String :=
  match info with
  | .block id path readOnly =>
    hotAttachDevice o (.block id path readOnly) vm.blockDriver.toBusType vm
  | .tap => (vm, none, .error (.unimplemented "hot attach for tap device"))
  | .physical => (vm, none, .error (.unimplemented "hot attach for vfio device"))
  | .vhostUser => (vm, none, .error (.unimplemented "hot attach for vhost_user device"))
  | .char id chardevId name backend =>
    hotAttachDevice o (.char id chardevId name backend) .serial vm

/-! ## The buses of a new VM -/

/-- A bridge of `create_bridges`. -/
def bridge (kind : String) (i : ℕ) : Bus where
  type := .pci
  id := kind ++ "-bridge-" ++ toString i
  busAddr := twoDigits (2 + i)
  slots := List.replicate 30 none

/-- `create_bridges`; the machine type `virt` has a PCIe root. -/
def createBridges (count : ℕ) (machineType : String) : List Bus :=
  (List.range count).map (bridge (if machineType = "virt" then "pcie" else "pci"))

/-- The bus of a `ScsiController`. -/
def scsiController (id : String) : Bus where
  type := .scsi
  id := id
  busAddr := "0:0"
  slots := List.replicate 64 none

/-- The bus of a `SerialBridge`. -/
def serialBridge (id : String) : Bus where
  type := .serial
  id := id
  busAddr := id ++ ".0"
  slots := List.replicate 31 none

/-- `create_vm`. No other device of the VM has a bus. -/
def createVm (defaultBridges : ℕ) (machineType : String) (driver : BlockDriver) : VM where
  buses := createBridges defaultBridges machineType ++
    (if driver = .virtioScsi then [scsiController "scsi0"] else []) ++ [serialBridge "serial0"]
  hotAttached := []
  blockDriver := driver
  client := false

/-! ## Runs -/

/-- The calls of a VM, and the connection that comes and goes. -/
inductive Label where
  | attach (o : QmpOutcomes) (info : DeviceInfo)
  | detach (o : QmpOutcomes) (id : String)
  | connect (client : Bool)

/-- One call. -/
def next : Label → Tla.Action VM
  | .attach o info => fun vm vm' => vm' = (hotAttach o info vm).1
  | .detach o id => fun vm vm' => vm' = (hotDetach o id vm).1
  | .connect client => fun vm vm' => vm' = { vm with client := client }

/-- A VM as the factory makes it. -/
def Init (vm : VM) : Prop :=
  ∃ defaultBridges machineType driver, vm = createVm defaultBridges machineType driver

def DeviceInfo.id? : DeviceInfo → Option String
  | .block id _ _ => some id
  | .char id _ _ _ => some id
  | _ => none

/-- No device on the list has the id of one that is to be attached. -/
def Distinct (l : Label) (vm : VM) : Prop :=
  match l with
  | .attach _ info => ∀ id, info.id? = some id → id ∉ vm.hotAttached.map HotDevice.id
  | _ => True

/-! ## The layout of the buses -/

/-- Two buses of a VM: different ids, PCI buses at different addresses, and not both SCSI. -/
def Apart (f f' : BusType × String × String) : Prop :=
  f.2.1 ≠ f'.2.1 ∧ (f.1 = .pci → f'.1 = .pci → f.2.2 ≠ f'.2.2) ∧ ¬ (f.1 = .scsi ∧ f'.1 = .scsi)

/-- The buses of a VM are apart. -/
def Laid (buses : List Bus) : Prop := (buses.map Bus.frame).Pairwise Apart

variable {buses : List Bus} {b b' n : ℕ} {bus bus' : Bus}

theorem Laid.of_frames {buses' : List Bus} (h : Laid buses)
    (hframes : buses'.map Bus.frame = buses.map Bus.frame) : Laid buses' := by
  unfold Laid
  rw [hframes]
  exact h

section

variable (h : Laid buses) (hb : buses[b]? = some bus) (hb' : buses[b']? = some bus')

include h hb hb'

theorem Laid.apart (hlt : b < b') : Apart bus.frame bus'.frame := by
  obtain ⟨hlen, rfl⟩ := List.getElem?_eq_some_iff.mp hb
  obtain ⟨hlen', rfl⟩ := List.getElem?_eq_some_iff.mp hb'
  exact List.pairwise_iff_getElem.mp (List.pairwise_map.mp h) b b' hlen hlen' hlt

/-- Two buses that are not apart are one. -/
theorem Laid.eq (hnot : ¬ Apart bus.frame bus'.frame) (hnot' : ¬ Apart bus'.frame bus.frame) :
    b = b' := by
  rcases Nat.lt_trichotomy b b' with hlt | heq | hgt
  · exact absurd (h.apart hb hb' hlt) hnot
  · exact heq
  · exact absurd (h.apart hb' hb hgt) hnot'

theorem Laid.eq_of_id (hid : bus.id = bus'.id) : b = b' :=
  h.eq hb hb' (fun hapart => hapart.1 hid) (fun hapart => hapart.1 hid.symm)

end

theorem bridge_id_inj {kind : String} {i j : ℕ} (h : (bridge kind i).id = (bridge kind j).id) :
    i = j :=
  Delimited.toString_inj.mp ((String.append_right_inj _).mp h)

theorem twoDigits_inj {m : ℕ} : twoDigits n = twoDigits m ↔ n = m := by
  rw [twoDigits, twoDigits, String.ofList_inj, Hex.padded_inj]

/-- The bridges of a VM have an id that begins otherwise than those of the other buses. -/
theorem bridge_id_ne {kind id : String} {i : ℕ} (hkind : kind = "pcie" ∨ kind = "pci")
    (hid : id = "scsi0" ∨ id = "serial0") : (bridge kind i).id ≠ id := by
  intro h
  have hhead := congrArg (fun s : String => s.toList.head?) h
  simp only [bridge, String.toList_append] at hhead
  rcases hkind with rfl | rfl <;> rcases hid with rfl | rfl <;> simp at hhead

theorem laid_createBridges (count : ℕ) (machineType : String) :
    Laid (createBridges count machineType) := by
  rw [Laid, createBridges, List.map_map, List.pairwise_map, List.pairwise_iff_getElem]
  intro i j hi hj hlt
  rw [List.getElem_range, List.getElem_range]
  refine ⟨fun h => absurd (bridge_id_inj h) (by omega), fun _ _ h => ?_,
    by simp [bridge, Bus.frame]⟩
  exact absurd (twoDigits_inj.mp h) (by omega)

theorem apart_of_pci {f f' : BusType × String × String} (hpci : f.1 = .pci)
    (hid : f.2.1 ≠ f'.2.1) (hother : f'.1 ≠ .pci) : Apart f f' := by
  refine ⟨hid, fun _ h => absurd h hother, ?_⟩
  rintro ⟨hscsi, -⟩
  rw [hpci] at hscsi
  cases hscsi

theorem laid_createVm (defaultBridges : ℕ) (machineType : String) (driver : BlockDriver) :
    Laid (createVm defaultBridges machineType driver).buses := by
  have hbridges := laid_createBridges defaultBridges machineType
  have hother : ∀ f ∈ (createBridges defaultBridges machineType).map Bus.frame,
      f.1 = .pci ∧ f.2.1 ≠ "scsi0" ∧ f.2.1 ≠ "serial0" := by
    intro f hf
    obtain ⟨bus, hbus, rfl⟩ := List.mem_map.mp hf
    obtain ⟨i, -, rfl⟩ := List.mem_map.mp hbus
    have hkind : (if machineType = "virt" then "pcie" else "pci") = "pcie" ∨
        (if machineType = "virt" then "pcie" else "pci") = "pci" := by
      split
      · exact .inl rfl
      · exact .inr rfl
    exact ⟨rfl, bridge_id_ne hkind (.inl rfl), bridge_id_ne hkind (.inr rfl)⟩
  rw [Laid, createVm]
  simp only [List.map_append, List.append_assoc]
  rw [List.pairwise_append]
  refine ⟨hbridges, ?_, ?_⟩
  · split <;> simp [Apart, Bus.frame, scsiController, serialBridge]
  · intro f hf f' hf'
    obtain ⟨hpci, hscsi, hserial⟩ := hother f hf
    have hf' : f' = (scsiController "scsi0").frame ∨ f' = (serialBridge "serial0").frame := by
      rcases List.mem_append.mp hf' with h | h
      · split at h
        · exact .inl (by simpa using h)
        · cases h
      · exact .inr (by simpa using h)
    rcases hf' with rfl | rfl
    · exact apart_of_pci hpci hscsi (by decide)
    · exact apart_of_pci hpci hserial (by decide)

/-! ## Taking a slot -/

theorem emptySlot_eq_some {busType : BusType} {busId : String} {index : ℕ}
    (h : emptySlot busType buses = some (busId, index)) :
    ∃ bus ∈ buses, bus.type = busType ∧ bus.id = busId ∧ bus.slots[index]? = some none := by
  obtain ⟨bus, hbus, hslot⟩ := List.exists_of_findSome?_eq_some h
  obtain ⟨i, hi, heq⟩ := Option.map_eq_some_iff.mp hslot
  rw [Prod.mk.injEq] at heq
  rw [List.mem_filter, decide_eq_true_eq] at hbus
  refine ⟨bus, hbus.1, hbus.2, heq.1, ?_⟩
  rw [← heq.2]
  exact (firstEmpty_eq_some hi).2.1

/-- A bus is found by its id, and its slot is taken. -/
theorem attachToBus_eq (index : ℕ) (deviceId : String) (hlaid : Laid buses) (hbus : bus ∈ buses) :
    ∃ b, attachToBus bus.id index deviceId buses =
        some (updateFirst (isBus bus.id) (Bus.occupy index deviceId) buses, bus.busAddr, b) ∧
      buses.findIdx? (isBus bus.id) = some b ∧ buses[b]? = some bus := by
  obtain ⟨b, hb⟩ := List.mem_iff_getElem?.mp hbus
  obtain ⟨hlen, hget⟩ := List.getElem?_eq_some_iff.mp hb
  have hfound : buses.findIdx? (isBus bus.id) = some b := by
    rw [List.findIdx?_eq_some_iff_getElem]
    refine ⟨hlen, by simp [isBus, hget], ?_⟩
    intro j hj hid
    have hid' : buses[j].id = bus.id := of_decide_eq_true hid
    exact absurd (hlaid.eq_of_id (List.getElem?_eq_getElem (by omega)) hb hid') (by omega)
  refine ⟨b, ?_, hfound, hb⟩
  rw [attachToBus, hfound]
  simp only [hb, Option.map_some]

/-! ## The invariant -/

/-- The address of a block device is that of the place its command named. -/
def Denotes (driver : BlockDriver) (bus : Bus) (index : ℕ) (d : HotDevice) : Prop :=
  match driver with
  | .virtioBlk => d.sent.bus = some bus.id ∧
      ("addr", Value.str (twoDigits index)) ∈ d.sent.arguments ∧
      d.addr = "0000:" ++ bus.busAddr ++ ":" ++ twoDigits index ++ ".0"
  | .virtioMmio => False
  | .virtioScsi => d.sent.bus = some (bus.id ++ ".0") ∧
      ("scsi-id", Value.num (index / 256)) ∈ d.sent.arguments ∧
      ("lun", Value.num (index % 256)) ∈ d.sent.arguments ∧
      d.addr = toString (index / 256) ++ ":" ++ toString (index % 256)

def HotDevice.IsBlock (d : HotDevice) : Prop :=
  ∃ id file readonly, d.device = .block id file readonly

/-- Where a block device is, it was sent to, and that is what its address says. -/
def Located (vm : VM) (d : HotDevice) : Prop :=
  ∃ bus, vm.buses[d.place.1]? = some bus ∧ bus.type = vm.blockDriver.toBusType ∧
    Denotes vm.blockDriver bus d.place.2 d

/-- The slots and the list agree, and the block devices are where their addresses say. -/
structure Inv (vm : VM) : Prop where
  laid : Laid vm.buses
  ids : (vm.hotAttached.map HotDevice.id).Nodup
  slots : ∀ b i id, occupant vm.buses b i = some id ↔
    ∃ d ∈ vm.hotAttached, d.id = id ∧ d.place = (b, i)
  located : ∀ d ∈ vm.hotAttached, d.IsBlock → Located vm d
  noMmio : ∀ bus ∈ vm.buses, bus.type ≠ .null

theorem Located.of_frames {vm vm' : VM} {d : HotDevice} (h : Located vm d)
    (hframes : vm'.buses.map Bus.frame = vm.buses.map Bus.frame)
    (hdriver : vm'.blockDriver = vm.blockDriver) : Located vm' d := by
  obtain ⟨bus, hbus, htype, hden⟩ := h
  have hget : (vm'.buses[d.place.1]?).map Bus.frame = some bus.frame := by
    rw [← List.getElem?_map, hframes, List.getElem?_map, hbus, Option.map_some]
  obtain ⟨bus', hbus', hframe⟩ := Option.map_eq_some_iff.mp hget
  simp only [Bus.frame, Prod.mk.injEq] at hframe
  refine ⟨bus', hbus', ?_, ?_⟩
  · rw [hframe.1, hdriver, htype]
  · rw [hdriver]
    unfold Denotes at hden ⊢
    rwa [hframe.2.1, hframe.2.2]

theorem noMmio_of_frames {buses' : List Bus} (h : ∀ bus ∈ buses, bus.type ≠ BusType.null)
    (hframes : buses'.map Bus.frame = buses.map Bus.frame) :
    ∀ bus ∈ buses', bus.type ≠ BusType.null := by
  intro bus hbus
  have hmem : bus.frame ∈ buses.map Bus.frame := hframes ▸ List.mem_map_of_mem hbus
  obtain ⟨bus₀, hbus₀, hframe⟩ := List.mem_map.mp hmem
  have htype : bus₀.type = bus.type := congrArg Prod.fst hframe
  exact htype ▸ h bus₀ hbus₀

/-- All slots of a new VM are empty. -/
theorem createVm_buses {defaultBridges : ℕ} {machineType : String} {driver : BlockDriver} :
    ∀ bus ∈ (createVm defaultBridges machineType driver).buses,
      bus.type ≠ .null ∧ ∀ slot ∈ bus.slots, slot = none := by
  intro bus hbus
  have hempty : ∀ n slot, slot ∈ List.replicate n (none : Option String) → slot = none :=
    fun n slot h => List.eq_of_mem_replicate h
  simp only [createVm, List.mem_append] at hbus
  rcases hbus with (hbus | hbus) | hbus
  · obtain ⟨i, -, rfl⟩ := List.mem_map.mp hbus
    exact ⟨by simp [bridge], hempty 30⟩
  · split at hbus
    · rw [List.mem_singleton.mp hbus]
      exact ⟨by simp [scsiController], hempty 64⟩
    · cases hbus
  · rw [List.mem_singleton.mp hbus]
    exact ⟨by simp [serialBridge], hempty 31⟩

namespace Inv

variable {vm vm' : VM} {d d' : HotDevice} {id : String} {o : QmpOutcomes} {device : Device}
  {busType : BusType} {busId : String} {index : ℕ}

theorem of_init (h : Init vm) : Inv vm := by
  obtain ⟨defaultBridges, machineType, driver, rfl⟩ := h
  refine ⟨laid_createVm _ _ _, List.nodup_nil, ?_, ?_, fun bus hbus => (createVm_buses bus hbus).1⟩
  · intro b i id
    refine iff_of_false ?_ ?_
    · intro hocc
      obtain ⟨bus, hbus, hslot⟩ := occupant_eq_some.mp hocc
      have hnone := (createVm_buses bus (List.mem_of_getElem? hbus)).2 _
        (List.mem_of_getElem? hslot)
      cases hnone
    · rintro ⟨d, hd, -⟩
      cases hd
  · intro d hd
    cases hd

theorem eq_of_id (h : Inv vm) (hd : d ∈ vm.hotAttached) (hd' : d' ∈ vm.hotAttached)
    (hid : d.id = d'.id) : d = d' :=
  List.inj_on_of_nodup_map h.ids hd hd' hid

/-- A device has one slot. -/
theorem place_unique (h : Inv vm) {b b' i i' : ℕ} (hi : occupant vm.buses b i = some id)
    (hi' : occupant vm.buses b' i' = some id) : b = b' ∧ i = i' := by
  obtain ⟨d, hd, hid, hplace⟩ := (h.slots b i id).mp hi
  obtain ⟨d', hd', hid', hplace'⟩ := (h.slots b' i' id).mp hi'
  have heq := h.eq_of_id hd hd' (hid.trans hid'.symm)
  rw [heq, hplace', Prod.mk.injEq] at hplace
  exact ⟨hplace.1.symm, hplace.2.symm⟩

/-- The order of the list does not matter. -/
theorem perm (h : Inv vm) {hotAttached : List HotDevice} (hperm : hotAttached.Perm vm.hotAttached) :
    Inv { vm with hotAttached := hotAttached } where
  laid := h.laid
  ids := (hperm.map HotDevice.id).nodup_iff.mpr h.ids
  slots := by
    intro b i id
    rw [h.slots b i id]
    constructor
    · rintro ⟨d, hd, hrest⟩
      exact ⟨d, hperm.mem_iff.mpr hd, hrest⟩
    · rintro ⟨d, hd, hrest⟩
      exact ⟨d, hperm.mem_iff.mp hd, hrest⟩
  located := fun d hd hblock => h.located d (hperm.mem_iff.mp hd) hblock
  noMmio := h.noMmio

/-- A device leaves the list and its slot. -/
theorem remove (h : Inv vm) {rest : List HotDevice} (hperm : (d :: rest).Perm vm.hotAttached) :
    Inv { vm with hotAttached := rest, buses := detachFromBus d.id vm.buses } := by
  have hframes := frames_detachFromBus d.id vm.buses
  have hnd : (d.id :: rest.map HotDevice.id).Nodup :=
    (hperm.map HotDevice.id).nodup_iff.mpr h.ids
  have hrest : ∀ d' ∈ rest, d' ∈ vm.hotAttached ∧ d'.id ≠ d.id := by
    intro d' hd'
    refine ⟨hperm.mem_iff.mp (List.mem_cons_of_mem d hd'), ?_⟩
    intro heq
    exact (List.nodup_cons.mp hnd).1 (heq ▸ List.mem_map_of_mem hd')
  refine ⟨h.laid.of_frames hframes, (List.nodup_cons.mp hnd).2, ?_, ?_,
    noMmio_of_frames h.noMmio hframes⟩
  · intro b i id
    rw [occupant_detachFromBus fun b j k hj hk => (h.place_unique hj hk).2]
    by_cases hocc : occupant vm.buses b i = some d.id
    · -- the slot of the device is empty now
      rw [if_pos hocc]
      refine iff_of_false (by simp) ?_
      rintro ⟨d', hd', -, hplace⟩
      have hocc' : occupant vm.buses b i = some d'.id :=
        (h.slots b i d'.id).mpr ⟨d', (hrest d' hd').1, rfl, hplace⟩
      rw [hocc] at hocc'
      exact (hrest d' hd').2 (Option.some.inj hocc').symm
    · rw [if_neg hocc, h.slots b i id]
      constructor
      · rintro ⟨d', hd', hid, hplace⟩
        rcases List.mem_cons.mp (hperm.mem_iff.mpr hd') with rfl | hmem
        · exact absurd ((h.slots b i _).mpr ⟨d', hd', rfl, hplace⟩) hocc
        · exact ⟨d', hmem, hid, hplace⟩
      · rintro ⟨d', hd', hid, hplace⟩
        exact ⟨d', (hrest d' hd').1, hid, hplace⟩
  · intro d' hd' hblock
    exact (h.located d' (hrest d' hd').1 hblock).of_frames hframes rfl

/-- A device takes an empty slot and is put on the list. -/
theorem insert (h : Inv vm) (d : HotDevice) {bus : Bus} {b : ℕ} (hbus : vm.buses[b]? = some bus)
    (hfound : vm.buses.findIdx? (isBus bus.id) = some b)
    (hempty : bus.slots[d.place.2]? = some none) (hb : d.place.1 = b)
    (hnew : d.id ∉ vm.hotAttached.map HotDevice.id)
    (hloc : d.IsBlock → bus.type = vm.blockDriver.toBusType ∧
      Denotes vm.blockDriver bus d.place.2 d) :
    Inv { vm with
      buses := updateFirst (isBus bus.id) (Bus.occupy d.place.2 d.id) vm.buses
      hotAttached := vm.hotAttached ++ [d] } := by
  have hframes := frames_occupy bus.id d.place.2 d.id vm.buses
  refine ⟨h.laid.of_frames hframes, ?_, ?_, ?_, noMmio_of_frames h.noMmio hframes⟩
  · apply nodup_map_concat h.ids
    intro d' hd' heq
    exact hnew (heq ▸ List.mem_map_of_mem hd')
  · intro b' i id
    rw [occupant_occupy hfound hbus hempty]
    by_cases hat : b' = b ∧ i = d.place.2
    · rw [if_pos hat, Option.some.injEq]
      have hold : occupant vm.buses b' i = none := by
        rw [hat.1, hat.2, occupant_of_bus hbus, hempty]
        rfl
      constructor
      · intro hid
        exact ⟨d, by simp, hid, Prod.ext (hb.trans hat.1.symm) hat.2.symm⟩
      · rintro ⟨d', hd', hid, hplace⟩
        rcases mem_concat.mp hd' with hd' | rfl
        · have := (h.slots b' i id).mpr ⟨d', hd', hid, hplace⟩
          rw [hold] at this
          cases this
        · exact hid
    · rw [if_neg hat, h.slots b' i id]
      constructor
      · rintro ⟨d', hd', hrest⟩
        exact ⟨d', List.mem_append_left _ hd', hrest⟩
      · rintro ⟨d', hd', hid, hplace⟩
        rcases mem_concat.mp hd' with hd' | rfl
        · exact ⟨d', hd', hid, hplace⟩
        · exact absurd ⟨by rw [← hb, hplace], by rw [hplace]⟩ hat
  · intro d' hd' hblock
    rcases mem_concat.mp hd' with hd' | rfl
    · exact (h.located d' hd' hblock).of_frames hframes rfl
    · have hold : Located vm d' := ⟨bus, hb ▸ hbus, hloc hblock⟩
      exact hold.of_frames hframes rfl

theorem hotDetach (h : Inv vm) : Inv (hotDetach o id vm).1 := by
  unfold Qemu.hotDetach
  split
  · exact h
  · rename_i d hfind
    have hperm := cons_eraseP_perm hfind
    have hback : (vm.hotAttached.eraseP (isDevice id) ++ [d]).Perm vm.hotAttached :=
      (List.perm_append_singleton d _).trans hperm
    have hid : d.id = id := by simpa [isDevice] using List.find?_some hfind
    split
    · exact h.perm hback
    split
    · exact h.perm hback
    · rw [← hid] at hperm ⊢
      exact h.remove hperm

/-- What is sent for a block device on a bus of the VM, and what is returned for it. -/
theorem denotes_block {bus : Bus} {place : ℕ × ℕ} {id file : String} {readonly : Bool}
    (hdevice : device = .block id file readonly) (hdriver : vm.blockDriver ≠ .virtioMmio) :
    Denotes vm.blockDriver bus index ⟨device, place,
      device.toDeviceAdd vm.blockDriver.toBusType bus.id index,
      (returned vm device bus.busAddr index).toOption.getD ""⟩ := by
  subst hdevice
  cases hd : vm.blockDriver with
  | virtioBlk =>
    simp only [returned, hd, guestAddress]
    exact ⟨rfl, List.mem_cons_of_mem _ List.mem_cons_self, rfl⟩
  | virtioMmio => exact absurd hd hdriver
  | virtioScsi =>
    simp only [returned, hd, guestAddress]
    exact ⟨rfl, List.mem_cons_of_mem _ List.mem_cons_self,
      List.mem_cons_of_mem _ (List.mem_cons_of_mem _ List.mem_cons_self), rfl⟩

theorem executeHotAttach_eq {sent : DeviceAdd}
    (h : device.executeHotAttach o busType busId index = some sent) :
    sent = device.toDeviceAdd busType busId index := by
  unfold Device.executeHotAttach at h
  split at h
  · cases h
  · split at h
    · exact (Option.some.inj h).symm
    · cases h

theorem hotAttachDevice (h : Inv vm) (hnew : device.id ∉ vm.hotAttached.map HotDevice.id)
    (hblock : ∀ id file readonly, device = .block id file readonly →
      busType = vm.blockDriver.toBusType) :
    Inv (hotAttachDevice o device busType vm).1 := by
  unfold Qemu.hotAttachDevice
  split
  · exact h
  rename_i busId index hslot
  obtain ⟨bus, hbus, htype, rfl, hempty⟩ := emptySlot_eq_some hslot
  split
  · exact h
  split
  · exact h
  rename_i sent hsent
  obtain ⟨b, hattach, hfound, hget⟩ := attachToBus_eq index device.id h.laid hbus
  rw [hattach]
  refine h.insert ⟨device, (b, index), sent,
    (returned vm device bus.busAddr index).toOption.getD ""⟩ hget hfound hempty rfl hnew ?_
  rintro ⟨id, file, readonly, hdevice⟩
  have hbusType := hblock id file readonly hdevice
  have hdriver : vm.blockDriver ≠ .virtioMmio := by
    intro hmmio
    rw [hmmio] at hbusType
    exact h.noMmio bus hbus (htype.trans hbusType)
  rw [executeHotAttach_eq hsent]
  rw [hbusType] at htype ⊢
  exact ⟨htype, denotes_block hdevice hdriver⟩

/-- A call that succeeds puts a device on the list, with the command that it has executed and the
address that it returns. -/
theorem hotAttachDevice_returned (h : Inv vm) {sent : Option DeviceAdd} {addr : String}
    (hok : (Qemu.hotAttachDevice o device busType vm).2 = (sent, .ok addr)) :
    ∃ d, (Qemu.hotAttachDevice o device busType vm).1.hotAttached = vm.hotAttached ++ [d] ∧
      d.device = device ∧ sent = some d.sent ∧ addr = d.addr := by
  unfold Qemu.hotAttachDevice at hok ⊢
  split at hok
  · cases hok
  rename_i busId index hslot
  obtain ⟨bus, hbus, -, rfl, -⟩ := emptySlot_eq_some hslot
  split at hok
  · cases hok
  rename_i hclient
  split at hok
  · cases hok
  rename_i cmd hcmd
  obtain ⟨b, hattach, -⟩ := attachToBus_eq index device.id h.laid hbus
  simp only [hattach, Prod.mk.injEq] at hok
  simp only [if_neg hclient, hattach]
  refine ⟨_, rfl, rfl, hok.1.symm, ?_⟩
  rw [hok.2]
  rfl

theorem step {l : Label} (hdistinct : Distinct l vm) (hstep : next l vm vm') (h : Inv vm) :
    Inv vm' := by
  cases l with
  | attach o info =>
    cases hstep
    cases info with
    | block id path readOnly =>
      exact h.hotAttachDevice (hdistinct id rfl) (fun _ _ _ _ => rfl)
    | char id chardevId name backend =>
      exact h.hotAttachDevice (hdistinct id rfl) (fun _ _ _ heq => by cases heq)
    | tap => exact h
    | physical => exact h
    | vhostUser => exact h
  | detach o id =>
    cases hstep
    exact h.hotDetach
  | connect client =>
    cases hstep
    exact ⟨h.laid, h.ids, h.slots, h.located, h.noMmio⟩

end Inv

/-! ## Addresses -/

theorem colon_notMem_twoDigits (n : ℕ) : ':' ∉ (twoDigits n).toList := by
  rw [twoDigits, String.toList_ofList]
  exact Hex.notMem_padded (by decide) 2 n

theorem pciAddress_inj {a a' : String} {n n' : ℕ}
    (h : "0000:" ++ a ++ ":" ++ twoDigits n ++ ".0" =
      "0000:" ++ a' ++ ":" ++ twoDigits n' ++ ".0") :
    a = a' ∧ n = n' := by
  have hcut : "0000:" ++ a ++ ":" ++ twoDigits n = "0000:" ++ a' ++ ":" ++ twoDigits n' :=
    (String.append_left_inj _).mp h
  have hchars : ("0000:" ++ a).toList ++ ':' :: (twoDigits n).toList =
      ("0000:" ++ a').toList ++ ':' :: (twoDigits n').toList := by
    have hlist := congrArg String.toList hcut
    simpa [String.toList_append] using hlist
  obtain ⟨hbus, hslot⟩ :=
    Delimited.cut_last (colon_notMem_twoDigits n) (colon_notMem_twoDigits n') hchars
  refine ⟨(String.append_right_inj _).mp (String.toList_inj.mp hbus), ?_⟩
  exact twoDigits_inj.mp (String.toList_inj.mp hslot)

theorem scsiAddress_inj {n n' : ℕ}
    (h : toString (n / 256) ++ ":" ++ toString (n % 256) =
      toString (n' / 256) ++ ":" ++ toString (n' % 256)) : n = n' := by
  have hchars : (toString (n / 256)).toList ++ ':' :: (toString (n % 256)).toList =
      (toString (n' / 256)).toList ++ ':' :: (toString (n' % 256)).toList := by
    have hlist := congrArg String.toList h
    simpa [String.toList_append] using hlist
  obtain ⟨hdiv, hmod⟩ := Delimited.cut_last (Delimited.notMem_digits (by decide) (n % 256))
    (Delimited.notMem_digits (by decide) (n' % 256)) hchars
  have hdiv := Delimited.digits_inj hdiv
  have hmod := Delimited.digits_inj hmod
  omega

/-- Block devices with one address are one device. -/
theorem Inv.eq_of_addr {vm : VM} (h : Inv vm) {d d' : HotDevice} (hd : d ∈ vm.hotAttached)
    (hd' : d' ∈ vm.hotAttached) (hb : d.IsBlock) (hb' : d'.IsBlock) (haddr : d.addr = d'.addr) :
    d = d' := by
  obtain ⟨bus, hbus, htype, hden⟩ := h.located d hd hb
  obtain ⟨bus', hbus', htype', hden'⟩ := h.located d' hd' hb'
  have hplace : d.place = d'.place := by
    cases hdriver : vm.blockDriver with
    | virtioBlk =>
      rw [hdriver] at hden hden' htype htype'
      rw [hden.2.2, hden'.2.2] at haddr
      obtain ⟨hbusAddr, hindex⟩ := pciAddress_inj haddr
      have hnum : d.place.1 = d'.place.1 :=
        h.laid.eq hbus hbus' (fun hapart => hapart.2.1 htype htype' hbusAddr)
          (fun hapart => hapart.2.1 htype' htype hbusAddr.symm)
      exact Prod.ext hnum hindex
    | virtioMmio =>
      rw [hdriver] at hden
      exact hden.elim
    | virtioScsi =>
      rw [hdriver] at hden hden' htype htype'
      rw [hden.2.2.2, hden'.2.2.2] at haddr
      have hnum : d.place.1 = d'.place.1 :=
        h.laid.eq hbus hbus' (fun hapart => hapart.2.2 ⟨htype, htype'⟩)
          (fun hapart => hapart.2.2 ⟨htype', htype⟩)
      exact Prod.ext hnum (scsiAddress_inj haddr)
  have hocc := (h.slots d.place.1 d.place.2 d.id).mpr ⟨d, hd, rfl, rfl⟩
  have hocc' := (h.slots d.place.1 d.place.2 d'.id).mpr ⟨d', hd', rfl, by rw [hplace]⟩
  rw [hocc] at hocc'
  exact h.eq_of_id hd hd' (Option.some.inj hocc')

/-- After any sequence of attaches of devices with ids of their own and of detaches, with any of
the QMP commands failing: a slot is occupied exactly when its device is on the list, every device
on the list has one slot and no two of them the same; the addresses of the block devices on the
list are different, and each is that of the bus and the slot that were sent to QEMU. What is kept of
a device is what the call that attaches it has executed and returns. -/
theorem hot_attached_devices_hold_slots (vm : VM)
    (h : Tla.Reachable Init (Tla.Guarded Distinct next) vm) :
    (∀ b i id, occupant vm.buses b i = some id → ∃ d ∈ vm.hotAttached, d.id = id) ∧
      (∀ d ∈ vm.hotAttached, ∃! p : ℕ × ℕ, occupant vm.buses p.1 p.2 = some d.id) ∧
      (∀ d ∈ vm.hotAttached, ∀ d' ∈ vm.hotAttached, d.place = d'.place → d = d') ∧
      (∀ d ∈ vm.hotAttached, ∀ d' ∈ vm.hotAttached, d.IsBlock → d'.IsBlock → d.addr = d'.addr →
        d = d') ∧
      (∀ d ∈ vm.hotAttached, occupant vm.buses d.place.1 d.place.2 = some d.id ∧
        (d.IsBlock → Located vm d)) ∧
      ∀ o info sent addr, (hotAttach o info vm).2 = (sent, .ok addr) →
        ∃ d, (hotAttach o info vm).1.hotAttached = vm.hotAttached ++ [d] ∧
          info.id? = some d.id ∧ sent = some d.sent ∧ addr = d.addr := by
  have hinv : Inv vm := by
    apply h.guarded_invariant
    · intro vm hvm
      exact Inv.of_init hvm
    · intro l vm vm' hdistinct hstep hinv
      exact hinv.step hdistinct hstep
  have hat : ∀ d ∈ vm.hotAttached, occupant vm.buses d.place.1 d.place.2 = some d.id :=
    fun d hd => (hinv.slots _ _ _).mpr ⟨d, hd, rfl, rfl⟩
  refine ⟨?_, ?_, ?_, ?_, ?_, ?_⟩
  · intro b i id hocc
    obtain ⟨d, hd, hid, -⟩ := (hinv.slots b i id).mp hocc
    exact ⟨d, hd, hid⟩
  · intro d hd
    refine ⟨d.place, hat d hd, ?_⟩
    intro p hp
    obtain ⟨hfst, hsnd⟩ := hinv.place_unique hp (hat d hd)
    exact Prod.ext hfst hsnd
  · intro d hd d' hd' hplace
    have hocc := hat d hd
    rw [hplace, hat d' hd'] at hocc
    exact hinv.eq_of_id hd hd' (Option.some.inj hocc).symm
  · intro d hd d' hd' hb hb' haddr
    exact hinv.eq_of_addr hd hd' hb hb' haddr
  · intro d hd
    exact ⟨hat d hd, hinv.located d hd⟩
  · intro o info sent addr hok
    cases info with
    | block id path readOnly =>
      obtain ⟨d, hd, hdevice, hrest⟩ := hinv.hotAttachDevice_returned hok
      exact ⟨d, hd, congrArg (fun device => some (Device.id device)) hdevice.symm, hrest⟩
    | char id chardevId name backend =>
      obtain ⟨d, hd, hdevice, hrest⟩ := hinv.hotAttachDevice_returned hok
      exact ⟨d, hd, congrArg (fun device => some (Device.id device)) hdevice.symm, hrest⟩
    | tap | physical | vhostUser => cases hok

def connected : VM := { createVm 1 "q35" .virtioBlk with client := true }

/-- The VM with a disk, after a second disk whose front end could not be added, and a third. -/
def twoDisks : VM :=
  (hotAttach .accepted (.block "blk3" "/dev/sdc" false)
    (hotAttach { QmpOutcomes.accepted with addDevice := false } (.block "blk2" "/dev/sdb" false)
      (hotAttach .accepted (.block "blk1" "/dev/sda" false) connected).1).1).1

theorem hot_attached_devices_hold_slots_twoDisks :
    (twoDisks.hotAttached.map fun d => (d.id, d.place, d.addr)) =
        [("blk1", (0, 1), "0000:02:01.0"), ("blk3", (0, 2), "0000:02:02.0")] ∧
      (∀ d ∈ twoDisks.hotAttached, occupant twoDisks.buses d.place.1 d.place.2 = some d.id ∧
        (d.IsBlock → Located twoDisks d)) ∧
      ∃ d, (hotAttach .accepted (.block "blk4" "/dev/sdd" false) twoDisks).1.hotAttached =
          twoDisks.hotAttached ++ [d] ∧ some "blk4" = some d.id ∧ d.addr = "0000:02:03.0" := by
  have hnew : Tla.Reachable Init (Tla.Guarded Distinct next) connected :=
    .step (.init ⟨1, "q35", .virtioBlk, rfl⟩) ⟨.connect true, trivial, rfl⟩
  have hr : Tla.Reachable Init (Tla.Guarded Distinct next) twoDisks := by
    refine .step (.step (.step hnew ⟨.attach .accepted (.block "blk1" "/dev/sda" false), ?_, rfl⟩)
      ⟨.attach { QmpOutcomes.accepted with addDevice := false } (.block "blk2" "/dev/sdb" false),
        ?_, rfl⟩)
      ⟨.attach .accepted (.block "blk3" "/dev/sdc" false), ?_, rfl⟩
    all_goals
      intro id hid
      cases hid
      decide
  obtain ⟨-, -, -, -, hlocated, hreturned⟩ := hot_attached_devices_hold_slots twoDisks hr
  obtain ⟨d, hd, hid, -, haddr⟩ :=
    hreturned .accepted (.block "blk4" "/dev/sdd" false) _ "0000:02:03.0" rfl
  exact ⟨by decide, hlocated, d, hd, hid, haddr.symm⟩

end Kuasar.Hypervisor.Qemu

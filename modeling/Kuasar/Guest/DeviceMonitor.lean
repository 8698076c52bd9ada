import Kuasar.Tla.Core
import Kuasar.Data.Files

/-!
# Guest.DeviceMonitor — the block devices that the guest knows by address

The monitor caches a device by a key and hands it to whoever subscribed to its type and address. At
the start it scans sysfs; from then on it follows the uevents of the kernel. Both fill one cache,
but under different keys: the scan uses the SCSI index, or each PCI address on the way to a disk,
and an event its device path. So a remove event never finds what the scan cached, a disk that is
added at an address that is cached gets a second entry, and in the scan a partition takes the entry
of its disk.

Paths are lists of their components. A send into a full channel waits; here it is taken as made.
-/

namespace Kuasar.DeviceMonitor

open Tla

/-! ## Devices -/

inductive DeviceType where
  | blk
  | scsi
deriving DecidableEq, Repr

structure Device where
  path : String
  addr : String
  type : DeviceType
deriving DecidableEq, Repr

def startsWith (pre s : String) : Bool := pre.toList.isPrefixOf s.toList

/-- `strip_prefix`. -/
def stripPrefix (pre s : String) : Option String :=
  if startsWith pre s then some (String.ofList (s.toList.drop pre.toList.length)) else none

structure Uevent where
  action : String
  devpath : List String
  devname : String
  subsystem : String
deriving DecidableEq, Repr

def devPath (devname : String) : String := "/dev/" ++ devname

/-- `convert_to_scsi_device`: at least four components, the last three of which are the SCSI index,
`block` and the disk. -/
def convertToScsiDevice (event : Uevent) : Option Device :=
  match event.devpath.reverse with
  | _ :: block :: index :: _ :: _ =>
    if event.subsystem = "block" ∧ block = "block" ∧ event.devname ≠ "" then
      (stripPrefix "0:0:" index).map fun addr => ⟨devPath event.devname, addr, .scsi⟩
    else none
  | _ => none

/-- `convert_to_blk_device`: at least five components, the last four of which are the PCI address,
the virtio device, `block` and the disk. A PCI address before it is that of a bridge and is taken
instead, unless it is the first component. -/
def convertToBlkDevice (event : Uevent) : Option Device :=
  match event.devpath.reverse with
  | _ :: block :: virtio :: pci :: bridge :: rest =>
    if event.subsystem = "block" ∧ startsWith "0000:" pci = true ∧
        startsWith "virtio" virtio = true ∧ block = "block" ∧ event.devname ≠ "" then
      let addr := if rest ≠ [] ∧ startsWith "0000:" bridge = true then bridge else pci
      some ⟨devPath event.devname, addr, .blk⟩
    else none
  | _ => none

/-- `DEVICE_CONVERTORS`, in their order. -/
def convert (event : Uevent) : Option Device :=
  (convertToScsiDevice event).or (convertToBlkDevice event)

structure KernelDevice where
  parent : List String
  name : String
  subsystem : String
deriving DecidableEq, Repr

namespace KernelDevice

def devpath (d : KernelDevice) : List String := d.parent ++ [d.name]

def uevent (d : KernelDevice) (action : String) : Uevent :=
  ⟨action, d.devpath, d.name, d.subsystem⟩

/-- A disk, not one of its partitions. -/
def Whole (d : KernelDevice) : Prop :=
  d.subsystem = "block" ∧ d.parent.getLast? = some "block"

def addresses (d : KernelDevice) : DeviceType → List String
  | .blk => d.devpath.filter (startsWith "0000:")
  | .scsi => d.devpath.filterMap (stripPrefix "0:0:")

/-- The entry of `/sys/class/scsi_device` that a disk is the block device of. -/
def scsiIndex (d : KernelDevice) : Option String :=
  match d.parent.reverse with
  | block :: index :: _ => if d.subsystem = "block" ∧ block = "block" then some index else none
  | _ => none

end KernelDevice

/-! ## The scan -/

abbrev Cache := Files (List String) Device

/-- `init_scsi_devices`, over the disks in the order of the directory. An index on another channel
than the first makes it panic. -/
def initScsiDevices (cache : Cache) : List KernelDevice → Option Cache
  | [] => some cache
  | d :: ds =>
    match d.scsiIndex with
    | none => initScsiDevices cache ds
    | some index =>
      if startsWith "0:" index then
        (stripPrefix "0:0:" index).bind fun addr =>
          initScsiDevices (cache.write [index, "block"] ⟨devPath d.name, addr, .scsi⟩) ds
      else initScsiDevices cache ds

/-- One entry of `/sys/class/block`, a link with the components of the device path. -/
def scanBlkDevice (cache : Cache) (d : KernelDevice) : Cache :=
  if d.subsystem = "block" ∧ startsWith "vd" d.name = true then
    (d.addresses .blk).foldl (fun cache part => cache.write [part] ⟨devPath d.name, part, .blk⟩)
      cache
  else cache

/-- `init_blk_devices`. -/
def initBlkDevices (cache : Cache) (ds : List KernelDevice) : Cache := ds.foldl scanBlkDevice cache

/-! ## The monitor -/

structure Subscriber where
  id : ℕ
  type : DeviceType
  addr : String
deriving DecidableEq, Repr

/-- `is_match`. -/
def Subscriber.IsMatch (x : Subscriber) (device : Device) : Prop :=
  device.type = x.type ∧ device.addr = x.addr

/-- A device that was sent to a subscriber, and the devices that were present. -/
structure Given where
  subscriber : Subscriber
  device : Device
  present : List KernelDevice

structure St where
  present : List KernelDevice
  devices : Cache
  subscribers : List Subscriber
  idGenerator : ℕ
  given : List Given

/-- `add_device`: of the subscribers that match, one is sent the device. -/
inductive AddDevice (key : List String) (device : Device) (s : St) : St → Prop where
  | unclaimed (h : ∀ x ∈ s.subscribers, ¬ x.IsMatch device) :
      AddDevice key device s { s with devices := s.devices.write key device }
  | send (x : Subscriber) (hx : x ∈ s.subscribers) (h : x.IsMatch device) :
      AddDevice key device s { s with
        devices := s.devices.write key device
        given := s.given ++ [⟨x, device, s.present⟩] }

inductive Label where
  | add (d : KernelDevice)
  | remove (d : KernelDevice)
  | other (event : Uevent)
  | subscribe (type : DeviceType) (addr : String)
  | unsubscribe (id : ℕ)

/-- One step: the kernel adds or removes a device and the monitor handles the event, or a
subscriber comes or goes. -/
inductive next : Label → St → St → Prop where
  | addUnknown {s d} (h : convert (d.uevent "add") = none) :
      next (.add d) s { s with present := d :: s.present }
  | add {s s' d device} (h : convert (d.uevent "add") = some device)
      (hadd : AddDevice d.devpath device { s with present := d :: s.present } s') :
      next (.add d) s s'
  | remove {s d} :
      next (.remove d) s { s with
        present := s.present.filter (·.devpath ≠ d.devpath)
        devices := s.devices.remove d.devpath }
  -- other actions are ignored
  | other {s event} (h : event.action ≠ "add" ∧ event.action ≠ "remove") : next (.other event) s s
  | subscribe {s : St} {type addr} {sent : List Device}
      (h : ∀ device, device ∈ sent ↔ device.type = type ∧ device.addr = addr ∧
        ∃ key, s.devices key = some device) :
      next (.subscribe type addr) s { s with
        subscribers := s.subscribers ++ [⟨s.idGenerator + 1, type, addr⟩]
        idGenerator := s.idGenerator + 1
        given := s.given ++ sent.map (⟨⟨s.idGenerator + 1, type, addr⟩, ·, s.present⟩) }
  | unsubscribe {s id} :
      next (.unsubscribe id) s { s with subscribers := s.subscribers.filter (·.id ≠ id) }

/-- The monitor after the scan of the devices that are present, in some order. -/
def Init : StatePred St := fun s =>
  ∃ scsi blk : List KernelDevice, scsi.Perm s.present ∧ blk.Perm s.present ∧
    (initScsiDevices (fun _ => none) scsi).map (initBlkDevices · blk) = some s.devices ∧
    s.subscribers = [] ∧ s.given = []

/-! ## The property -/

def PresentAt (present : List KernelDevice) (type : DeviceType) (addr : String)
    (device : Device) : Prop :=
  ∃ d ∈ present, d.Whole ∧ device.path = devPath d.name ∧ addr ∈ d.addresses type

/-- At most one cached device matches any type and address, and what a subscriber was given is a
disk that was present at the address that it asked for. -/
structure Exact (s : St) : Prop where
  atMostOne : ∀ key key' device device', s.devices key = some device →
    s.devices key' = some device' → device.type = device'.type → device.addr = device'.addr →
    key = key'
  given : ∀ g ∈ s.given, PresentAt g.present g.subscriber.type g.subscriber.addr g.device

/-- No virtio disk has a partition at the start. -/
def InitWhole : StatePred St := fun s =>
  Init s ∧ ∀ d ∈ s.present, d.subsystem = "block" → startsWith "vd" d.name = true → d.Whole

/-- A device is added at an address that is not cached under another key, and what is removed is
not cached under another key than its own. -/
def OwnKey (l : Label) (s : St) : Prop :=
  match l with
  | .add d => ∀ device, convert (d.uevent "add") = some device →
      ∀ key device', s.devices key = some device' → device'.type = device.type →
        device'.addr = device.addr → key = d.devpath
  | .remove d => ∀ key device, s.devices key = some device → device.path = devPath d.name →
      key = d.devpath
  | _ => True

/-! ## What the converters and the scan make of a device -/

theorem stripPrefix_eq {pre s t : String} (h : stripPrefix pre s = some t) : s = pre ++ t := by
  unfold stripPrefix startsWith at h
  split at h
  · rename_i hpre
    obtain ⟨rest, hrest⟩ := List.isPrefixOf_iff_prefix.mp hpre
    cases h
    apply String.toList_inj.mp
    simp [← hrest]
  · cases h

/-- The device is `d` at one of its addresses. -/
def Stands (d : KernelDevice) (device : Device) : Prop :=
  d.Whole ∧ device.path = devPath d.name ∧ device.addr ∈ d.addresses device.type

theorem devpath_reverse (d : KernelDevice) : d.devpath.reverse = d.name :: d.parent.reverse := by
  simp [KernelDevice.devpath]

variable {s : St} {d : KernelDevice} {action : String} {device : Device}

theorem whole_of_reverse {rest : List String} (hsub : d.subsystem = "block")
    (hrev : d.parent.reverse = "block" :: rest) : d.Whole := by
  refine ⟨hsub, ?_⟩
  rw [← List.head?_reverse, hrev, List.head?_cons]

theorem convertToScsiDevice_stands (h : convertToScsiDevice (d.uevent action) = some device) :
    Stands d device := by
  unfold convertToScsiDevice at h
  split at h
  · rename_i name block index x rest hrev
    have hrev : d.devpath.reverse = name :: block :: index :: x :: rest := hrev
    have hindex : index ∈ d.devpath := List.mem_reverse.mp (by rw [hrev]; simp)
    rw [devpath_reverse] at hrev
    split at h
    · rename_i hcond
      obtain ⟨hsub, rfl, -⟩ := hcond
      obtain ⟨addr, haddr, rfl⟩ := Option.map_eq_some_iff.mp h
      refine ⟨whole_of_reverse hsub (List.cons.inj hrev).2, rfl, ?_⟩
      exact List.mem_filterMap.mpr ⟨index, hindex, haddr⟩
    · cases h
  · cases h

theorem convertToBlkDevice_stands (h : convertToBlkDevice (d.uevent action) = some device) :
    Stands d device := by
  unfold convertToBlkDevice at h
  split at h
  · rename_i name block virtio pci bridge rest hrev
    have hrev : d.devpath.reverse = name :: block :: virtio :: pci :: bridge :: rest := hrev
    have hpci : pci ∈ d.devpath := List.mem_reverse.mp (by rw [hrev]; simp)
    have hbridge : bridge ∈ d.devpath := List.mem_reverse.mp (by rw [hrev]; simp)
    rw [devpath_reverse] at hrev
    split at h
    · rename_i hcond
      obtain ⟨hsub, hp, -, rfl, -⟩ := hcond
      cases h
      refine ⟨whole_of_reverse hsub (List.cons.inj hrev).2, rfl, ?_⟩
      show (if _ then bridge else pci) ∈ d.devpath.filter (startsWith "0000:")
      split
      · rename_i hb
        exact List.mem_filter.mpr ⟨hbridge, hb.2⟩
      · exact List.mem_filter.mpr ⟨hpci, hp⟩
    · cases h
  · cases h

theorem convert_stands (h : convert (d.uevent action) = some device) : Stands d device := by
  rcases Option.or_eq_some_iff.mp h with h | ⟨-, h⟩
  · exact convertToScsiDevice_stands h
  · exact convertToBlkDevice_stands h

def scanKey (device : Device) : List String :=
  match device.type with
  | .scsi => ["0:0:" ++ device.addr, "block"]
  | .blk => [device.addr]

/-- The cache holds what the scan puts there of the devices that are present. -/
def Scanned (present : List KernelDevice) (cache : Cache) : Prop :=
  ∀ key device, cache key = some device →
    key = scanKey device ∧ ∃ d ∈ present, Stands d device

variable {present : List KernelDevice} {cache : Cache}

theorem Scanned.write {key : List String} {device : Device} {d : KernelDevice}
    (h : Scanned present cache) (hkey : key = scanKey device) (hd : d ∈ present)
    (hst : Stands d device) : Scanned present (cache.write key device) := by
  intro key' device' hw
  rcases Files.write_eq_some hw with ⟨rfl, rfl⟩ | ⟨-, hold⟩
  · exact ⟨hkey, d, hd, hst⟩
  · exact h key' device' hold

theorem scsiIndex_spec {index : String} (h : d.scsiIndex = some index) :
    d.Whole ∧ index ∈ d.devpath := by
  unfold KernelDevice.scsiIndex at h
  split at h
  · rename_i block index' rest hrev
    split at h
    · rename_i hcond
      obtain ⟨hsub, rfl⟩ := hcond
      cases h
      refine ⟨whole_of_reverse hsub hrev, List.mem_reverse.mp ?_⟩
      rw [devpath_reverse, hrev]
      simp
    · cases h
  · cases h

theorem initScsiDevices_scanned {ds : List KernelDevice} {cache' : Cache}
    (hsub : ∀ d ∈ ds, d ∈ present) (hsc : Scanned present cache)
    (h : initScsiDevices cache ds = some cache') : Scanned present cache' := by
  induction ds generalizing cache with
  | nil =>
    cases h
    exact hsc
  | cons d ds ih =>
    have hsub' : ∀ d ∈ ds, d ∈ present := fun x hx => hsub x (List.mem_cons_of_mem d hx)
    rw [initScsiDevices] at h
    split at h
    · exact ih hsub' hsc h
    · rename_i index hindex
      obtain ⟨hwhole, hmem⟩ := scsiIndex_spec hindex
      split at h
      · obtain ⟨addr, haddr, h⟩ := Option.bind_eq_some_iff.mp h
        refine ih hsub' (hsc.write ?_ (hsub d List.mem_cons_self) ⟨hwhole, rfl, ?_⟩) h
        · rw [stripPrefix_eq haddr]
          rfl
        · exact List.mem_filterMap.mpr ⟨index, hmem, haddr⟩
      · exact ih hsub' hsc h

theorem foldl_write_scanned {parts : List String} (hd : d ∈ present) (hwhole : d.Whole)
    (hparts : ∀ part ∈ parts, part ∈ d.addresses .blk) (hsc : Scanned present cache) :
    Scanned present (parts.foldl (fun (cache : Cache) part =>
      cache.write [part] ⟨devPath d.name, part, .blk⟩) cache) := by
  induction parts generalizing cache with
  | nil => exact hsc
  | cons part parts ih =>
    refine ih (fun x hx => hparts x (List.mem_cons_of_mem part hx)) ?_
    exact hsc.write rfl hd ⟨hwhole, rfl, hparts part List.mem_cons_self⟩

theorem initBlkDevices_scanned {ds : List KernelDevice} (hsub : ∀ d ∈ ds, d ∈ present)
    (hwhole : ∀ d ∈ present, d.subsystem = "block" → startsWith "vd" d.name = true → d.Whole)
    (hsc : Scanned present cache) : Scanned present (initBlkDevices cache ds) := by
  induction ds generalizing cache with
  | nil => exact hsc
  | cons d ds ih =>
    have hd := hsub d List.mem_cons_self
    refine ih (fun x hx => hsub x (List.mem_cons_of_mem d hx)) ?_
    unfold scanBlkDevice
    split
    · rename_i hcond
      exact foldl_write_scanned hd (hwhole d hd hcond.1 hcond.2) (fun _ h => h) hsc
    · exact hsc

/-! ## The invariant -/

/-- Every cached device stands for a disk that is present. -/
structure Inv (s : St) : Prop where
  backed : ∀ key device, s.devices key = some device → ∃ d ∈ s.present, Stands d device
  exact : Exact s

theorem init_inv (h : InitWhole s) : Inv s := by
  obtain ⟨⟨scsi, blk, hscsi, hblk, hscan, -, hgiven⟩, hwhole⟩ := h
  obtain ⟨cache, hcache, hdevices⟩ := Option.map_eq_some_iff.mp hscan
  have hempty : Scanned s.present fun _ => none := nofun
  have hsc : Scanned s.present s.devices := by
    rw [← hdevices]
    refine initBlkDevices_scanned (fun d hd => hblk.subset hd) hwhole ?_
    exact initScsiDevices_scanned (fun d hd => hscsi.subset hd) hempty hcache
  refine ⟨fun key device h => (hsc key device h).2, ?_, ?_⟩
  · intro key key' device device' h h' htype haddr
    rw [(hsc key device h).1, (hsc key' device' h').1]
    unfold scanKey
    rw [htype, haddr]
  · rw [hgiven]
    exact nofun

theorem Stands.presentAt (hd : d ∈ present) (h : Stands d device) :
    PresentAt present device.type device.addr device :=
  ⟨d, hd, h⟩

/-- A new device under its own key, if no other key has its address. -/
theorem atMostOne_write {key : List String} {device : Device}
    (hone : ∀ key key' device device', cache key = some device → cache key' = some device' →
      device.type = device'.type → device.addr = device'.addr → key = key')
    (hown : ∀ key' device', cache key' = some device' → device'.type = device.type →
      device'.addr = device.addr → key' = key) :
    ∀ k k' dev dev', cache.write key device k = some dev → cache.write key device k' = some dev' →
      dev.type = dev'.type → dev.addr = dev'.addr → k = k' := by
  intro k k' dev dev' h h' htype haddr
  rcases Files.write_eq_some h with ⟨rfl, rfl⟩ | ⟨-, hk⟩
  · rcases Files.write_eq_some h' with ⟨rfl, -⟩ | ⟨-, hk'⟩
    · rfl
    · exact (hown k' dev' hk' htype.symm haddr.symm).symm
  · rcases Files.write_eq_some h' with ⟨rfl, rfl⟩ | ⟨-, hk'⟩
    · exact hown k dev hk htype haddr
    · exact hone k k' dev dev' hk hk' htype haddr

theorem add_inv {s' : St} (h : convert (d.uevent "add") = some device) (hok : OwnKey (.add d) s)
    (hadd : AddDevice d.devpath device { s with present := d :: s.present } s') (hinv : Inv s) :
    Inv s' := by
  have hst := convert_stands h
  have hone := atMostOne_write hinv.exact.atMostOne (hok device h)
  have hbacked : ∀ key dev, s.devices.write d.devpath device key = some dev →
      ∃ x ∈ d :: s.present, Stands x dev := by
    intro key dev hw
    rcases Files.write_eq_some hw with ⟨-, rfl⟩ | ⟨-, hold⟩
    · exact ⟨d, List.mem_cons_self, hst⟩
    · obtain ⟨x, hx, hxs⟩ := hinv.backed key dev hold
      exact ⟨x, List.mem_cons_of_mem d hx, hxs⟩
  cases hadd with
  | unclaimed => exact ⟨hbacked, hone, hinv.exact.given⟩
  | send x hx hmatch =>
    refine ⟨hbacked, hone, ?_⟩
    intro g hg
    rcases List.mem_append.mp hg with hg | hg
    · exact hinv.exact.given g hg
    · obtain rfl := List.mem_singleton.mp hg
      rw [← hmatch.1, ← hmatch.2]
      exact hst.presentAt List.mem_cons_self

theorem remove_inv (hok : OwnKey (.remove d) s) (hinv : Inv s) :
    Inv { s with
      present := s.present.filter (·.devpath ≠ d.devpath)
      devices := s.devices.remove d.devpath } := by
  refine ⟨?_, ?_, hinv.exact.given⟩
  · intro key device h
    obtain ⟨hne, hold⟩ := Files.remove_eq_some h
    obtain ⟨x, hx, hst⟩ := hinv.backed key device hold
    refine ⟨x, List.mem_filter.mpr ⟨hx, ?_⟩, hst⟩
    -- the disk that it stands for is not the one that goes
    rw [decide_eq_true_iff]
    intro hpath
    have hname : x.name = d.name := by
      have := congrArg List.reverse hpath
      rw [devpath_reverse, devpath_reverse] at this
      exact (List.cons.inj this).1
    exact hne (hok key device hold (by rw [hst.2.1, hname]))
  · intro key key' device device' h h'
    exact hinv.exact.atMostOne key key' device device' (Files.remove_eq_some h).2
      (Files.remove_eq_some h').2

theorem step_inv {l : Label} {s' : St} (hok : OwnKey l s) (h : next l s s') (hinv : Inv s) :
    Inv s' := by
  cases h with
  | addUnknown h =>
    refine ⟨?_, hinv.exact.atMostOne, hinv.exact.given⟩
    intro key device hd
    obtain ⟨x, hx, hst⟩ := hinv.backed key device hd
    exact ⟨x, List.mem_cons_of_mem _ hx, hst⟩
  | add h hadd => exact add_inv h hok hadd hinv
  | remove => exact remove_inv hok hinv
  | other h => exact hinv
  | subscribe h =>
    refine ⟨hinv.backed, hinv.exact.atMostOne, ?_⟩
    intro g hg
    rcases List.mem_append.mp hg with hg | hg
    · exact hinv.exact.given g hg
    · obtain ⟨device, hdevice, rfl⟩ := List.mem_map.mp hg
      obtain ⟨rfl, rfl, key, hkey⟩ := (h device).mp hdevice
      obtain ⟨d, hd, hst⟩ := hinv.backed key device hkey
      exact hst.presentAt hd
  | unsubscribe => exact ⟨hinv.backed, hinv.exact.atMostOne, hinv.exact.given⟩

/-- From every population without partitions, in every run in which no device is added at an
address that is cached under another key and none is removed that is: the cache knows one device by
an address, and subscribers are given disks that are present there. -/
theorem monitor_exact {s : St} (h : Reachable InitWhole (Guarded OwnKey next) s) : Exact s :=
  (h.guarded_invariant (fun _ => init_inv) (fun _ _ _ hok hs hi => step_inv hok hs hi)).exact

/-! ## Runs -/

def disk (buses : List String) (name : String) : KernelDevice :=
  ⟨["", "devices", "pci0000:00"] ++ buses ++ ["virtio1", "block"], name, "block"⟩

def vda : KernelDevice := disk ["0000:00:02.0"] "vda"

/-- The cache after the scan of `vda`. -/
def vdaCache : Cache :=
  Files.write (fun _ => none) ["0000:00:02.0"] ⟨"/dev/vda", "0000:00:02.0", .blk⟩

/-- The monitor after the scan of `vda`. -/
def scannedVda : St := ⟨[vda], vdaCache, [], 0, []⟩

theorem scannedVda_init : InitWhole scannedVda := by
  refine ⟨⟨[vda], [vda], .refl _, .refl _, rfl, rfl, rfl⟩, ?_⟩
  intro d hd _ _
  obtain rfl : d = vda := List.mem_singleton.mp hd
  exact ⟨rfl, rfl⟩

/-- A subscriber that asks for the only device there is. -/
theorem sent_only (key : List String) (hkey : cache key = some device)
    (honly : ∀ key' device', cache key' = some device' → device' = device) (x : Device) :
    x ∈ [device] ↔ x.type = device.type ∧ x.addr = device.addr ∧ ∃ key, cache key = some x := by
  rw [List.mem_singleton]
  constructor
  · rintro rfl
    exact ⟨rfl, rfl, key, hkey⟩
  · rintro ⟨-, -, key', hkey'⟩
    exact honly key' x hkey'

theorem vdaCache_only : ∀ key device, vdaCache key = some device →
    device = ⟨"/dev/vda", "0000:00:02.0", .blk⟩ := by
  intro key device h
  rcases Files.write_eq_some h with ⟨-, h⟩ | ⟨-, h⟩
  · exact h
  · cases h

/-- A subscriber is given `vda`. -/
theorem monitor_exact_vda : ∃ s : St, s.given.map (·.device.path) = ["/dev/vda"] ∧ Exact s :=
  ⟨_, rfl, monitor_exact ((Reachable.init scannedVda_init).step
    ⟨.subscribe .blk "0000:00:02.0", trivial,
      .subscribe (sent_only ["0000:00:02.0"] rfl vdaCache_only)⟩)⟩

/-- The first partition of `vda`. -/
def vda1 : KernelDevice := ⟨vda.devpath, "vda1", "block"⟩

/-- The scan of `vda` and then of its partition. -/
def partitioned : St :=
  ⟨[vda, vda1], vdaCache.write ["0000:00:02.0"] ⟨"/dev/vda1", "0000:00:02.0", .blk⟩, [], 0, []⟩

theorem partition_is_given : ∃ s : St, Reachable Init (AnyStep next) s ∧
    s.given.map (fun g => (g.device.path, g.present)) = [("/dev/vda1", [vda, vda1])] := by
  have h₀ : Reachable Init (AnyStep next) partitioned :=
    .init ⟨[vda, vda1], [vda, vda1], .refl _, .refl _, rfl, rfl, rfl⟩
  have honly : ∀ key device, partitioned.devices key = some device →
      device = ⟨"/dev/vda1", "0000:00:02.0", .blk⟩ := by
    intro key device h
    rcases Files.write_eq_some h with ⟨-, h⟩ | ⟨hne, h⟩
    · exact h
    · rcases Files.write_eq_some h with ⟨heq, -⟩ | ⟨-, h⟩
      · exact absurd heq hne
      · cases h
  exact ⟨_, h₀.anyStep (.subscribe .blk "0000:00:02.0")
    (.subscribe (sent_only ["0000:00:02.0"] rfl honly)), rfl⟩

/-- `vda` is removed, and a subscriber is still given it. -/
theorem removed_disk_is_given : ∃ s : St, Reachable Init (AnyStep next) s ∧
    s.given.map (fun g => (g.device.path, g.present)) = [("/dev/vda", [])] := by
  have h₀ : Reachable Init (AnyStep next) scannedVda := .init scannedVda_init.1
  have h₁ := h₀.anyStep (.remove vda) .remove
  have honly : ∀ key device, vdaCache.remove vda.devpath key = some device →
      device = ⟨"/dev/vda", "0000:00:02.0", .blk⟩ :=
    fun key device h => vdaCache_only key device (Files.remove_eq_some h).2
  exact ⟨_, h₁.anyStep (.subscribe .blk "0000:00:02.0")
    (.subscribe (sent_only ["0000:00:02.0"] rfl honly)), rfl⟩

def vdb : KernelDevice := disk ["0000:00:05.0", "0000:01:01.0"] "vdb"

def vdc : KernelDevice := disk ["0000:00:05.0", "0000:01:02.0"] "vdc"

/-- Two disks behind one bridge are cached for the address of the bridge. -/
theorem bridge_has_two_disks : ∃ s : St, Reachable Init (AnyStep next) s ∧
    s.devices vdb.devpath = some ⟨"/dev/vdb", "0000:00:05.0", .blk⟩ ∧
    s.devices vdc.devpath = some ⟨"/dev/vdc", "0000:00:05.0", .blk⟩ := by
  have h₀ : Reachable Init (AnyStep next) ⟨[], fun _ => none, [], 0, []⟩ :=
    .init ⟨[], [], .refl _, .refl _, rfl, rfl, rfl⟩
  have h₁ := h₀.anyStep (.add vdb) (.add rfl (.unclaimed (by simp)))
  have h₂ := h₁.anyStep (.add vdc) (.add rfl (.unclaimed (by simp)))
  exact ⟨_, h₂, rfl, rfl⟩

theorem not_exact_of_given {path : String}
    (h : s.given.map (fun g => (g.device.path, g.present)) = [(path, present)])
    (hno : ∀ d ∈ present, d.Whole → path ≠ devPath d.name) : ¬ Exact s := by
  intro hexact
  have hmem : (path, present) ∈ s.given.map (fun g => (g.device.path, g.present)) := by
    rw [h]
    exact List.mem_singleton_self _
  obtain ⟨g, hg, heq⟩ := List.mem_map.mp hmem
  obtain ⟨rfl, rfl⟩ := Prod.mk.inj heq
  obtain ⟨d, hd, hwhole, hpath, -⟩ := hexact.given g hg
  exact hno d hd hwhole hpath

/-- A partition is given in place of its disk, a disk is given that was removed, and two disks are
cached for one address. -/
theorem monitor_not_exact :
    (∃ s : St, Reachable Init (AnyStep next) s ∧
      s.given.map (fun g => (g.device.path, g.present)) = [("/dev/vda1", [vda, vda1])] ∧
      ¬ Exact s) ∧
    (∃ s : St, Reachable Init (AnyStep next) s ∧
      s.given.map (fun g => (g.device.path, g.present)) = [("/dev/vda", [])] ∧ ¬ Exact s) ∧
    ∃ s : St, Reachable Init (AnyStep next) s ∧
      s.devices vdb.devpath = some ⟨"/dev/vdb", "0000:00:05.0", .blk⟩ ∧
      s.devices vdc.devpath = some ⟨"/dev/vdc", "0000:00:05.0", .blk⟩ ∧ ¬ Exact s := by
  refine ⟨?_, ?_, ?_⟩
  · obtain ⟨s, hr, hgiven⟩ := partition_is_given
    refine ⟨s, hr, hgiven, not_exact_of_given hgiven ?_⟩
    intro d hd hwhole
    rcases List.mem_cons.mp hd with rfl | hd
    · decide
    · obtain rfl := List.mem_singleton.mp hd
      exact absurd hwhole.2 (by decide)
  · obtain ⟨s, hr, hgiven⟩ := removed_disk_is_given
    exact ⟨s, hr, hgiven, not_exact_of_given hgiven (by simp)⟩
  · obtain ⟨s, hr, hb, hc⟩ := bridge_has_two_disks
    refine ⟨s, hr, hb, hc, ?_⟩
    intro hexact
    exact absurd (hexact.atMostOne _ _ _ _ hb hc rfl rfl) (by decide)

end Kuasar.DeviceMonitor

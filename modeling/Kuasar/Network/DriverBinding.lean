import Mathlib.Tactic.Common
import Kuasar.Tla.Core

/-!
# Network.DriverBinding — physical interfaces and the drivers they are bound to

A physical interface of the pod goes to the VM as a PCI device. It is bound to the vfio driver
before it is attached, and back to its own driver when the network of the sandbox is destroyed.
Which driver that was is in the type of the interface, and the interface is in the network of the
sandbox.

The network gets there when all interfaces are attached, and the type is not among the fields that
are dumped. So a device finds its way back (`drivers_restored`) as long as no attach fails after it
has bound a device, and the sandboxer does not restart while one is attached.
-/

namespace Kuasar.Net

open Tla

/-! ## Interfaces and devices -/

/-- What an interface is. A physical one has the address of its device and the driver that the
device had when the interface was found. -/
inductive LinkType where
  | unknown
  | bridge
  | veth
  | vlan (id : ℕ)
  | vxlan (id : ℕ)
  | bond
  | ipvlan (mode : ℕ)
  | macvlan (mode : ℕ)
  | macvtap (mode : ℕ)
  | tun
  | vhostUser (socket : String)
  | physical (bdf driver : String)
  | tap
  | loopback
  deriving DecidableEq, Repr

/-- An interface; `twin` is the tap that was made for a veth. -/
structure NetworkInterface where
  name : String
  macAddress : String := ""
  type : LinkType := .unknown
  index : ℕ := 0
  twin : Option String := none
  deriving DecidableEq, Repr

/-- The interface as it is read back from a dump: the fields that are skipped have their
defaults. -/
def NetworkInterface.reloaded (i : NetworkInterface) : NetworkInterface :=
  { name := i.name, macAddress := i.macAddress }

structure Device where
  driver : Option String
  driverOverride : Option String := none
  deriving DecidableEq, Repr

abbrev Devices := String → Device

/-- `DEVICE_DRIVER_VFIO`. -/
def vfio : String := "vfio-pci"

inductive NetError where
  | noDriver (bdf : String)
  | write (bdf : String)
  | otherDriver (bdf expected got : String)
  | tap (name : String)
  | noTap (name : String)
  | attach (id : ℕ)
  deriving DecidableEq, Repr

/-- Where the switch of a driver fails: at one of the writes, or because the device ends up with
another driver, or none. -/
inductive BindFault where
  | override
  | unbind
  | probe
  | rejected (got : Option String)
  deriving DecidableEq, Repr

/-- `get_pci_driver` after a switch. -/
def checkDriver (driver bdf : String) : Option String → Option NetError
  | none => some (.noDriver bdf)
  | some got => if got = driver then none else some (.otherDriver bdf driver got)

/-- `bind_device_to_driver`. -/
def bindDeviceToDriver (fault : Option BindFault) (driver bdf : String) (d : Devices) :
    Devices × Option NetError :=
  match (d bdf).driver with
  | none => (d, some (.noDriver bdf))
  | some current =>
    if current = driver then (d, none)
    else
      match fault with
      | some .override => (d, some (.write bdf))
      | some .unbind => (Function.update d bdf ⟨some current, some driver⟩, some (.write bdf))
      | some .probe => (Function.update d bdf ⟨none, some driver⟩, some (.write bdf))
      | some (.rejected got) =>
        (Function.update d bdf ⟨got, some driver⟩, checkDriver driver bdf got)
      | none => (Function.update d bdf ⟨some driver, some driver⟩, none)

/-! ## Attaching and destroying a network -/

/-- What happens to one interface of an attach: the switch of the driver, the tap of a veth, and the
hotplug. -/
structure Outcome where
  bind : Option BindFault := none
  tap : Bool := true
  attach : Bool := true
  deriving DecidableEq, Repr

/-- `prepare_attaching`. -/
def prepareAttaching (o : Outcome) (i : NetworkInterface) (d : Devices) :
    NetworkInterface × Devices × Option NetError :=
  match i.type with
  | .veth =>
    if o.tap then ({ i with twin := some s!"tap_kua_{i.index}" }, d, none)
    else (i, d, some (.tap i.name))
  | .physical bdf _ =>
    let r := bindDeviceToDriver o.bind vfio bdf d
    (i, r.1, r.2)
  | _ => (i, d, none)

/-- `NetworkInterface::attach_to`. -/
def NetworkInterface.attachTo (o : Outcome) (i : NetworkInterface) : Option NetError :=
  match i.type with
  | .veth =>
    if i.twin.isNone then some (.noTap i.name)
    else if o.attach then none
    else some (.attach i.index)
  | .vhostUser _ | .physical _ _ | .tap => if o.attach then none else some (.attach i.index)
  | _ => none

/-- The loop of `Network::attach_to`: the interfaces that were prepared, the devices, and the first
error. -/
def attachAll : List (NetworkInterface × Outcome) → Devices →
    List NetworkInterface × Devices × Option NetError
  | [], d => ([], d, none)
  | (i, o) :: rest, d =>
    match prepareAttaching o i d with
    | (_, d', some e) => ([], d', some e)
    | (i', d', none) =>
      match i'.attachTo o with
      | some e => ([i'], d', some e)
      | none =>
        let r := attachAll rest d'
        (i' :: r.1, r.2)

/-- `after_detach`; the error is logged. -/
def afterDetach (fault : Option BindFault) (i : NetworkInterface) (d : Devices) : Devices :=
  match i.type with
  | .physical bdf driver => (bindDeviceToDriver fault driver bdf d).1
  | _ => d

/-- `Network::destroy`. -/
def destroy (faults : NetworkInterface → Option BindFault) :
    List NetworkInterface → Devices → Devices
  | [], d => d
  | i :: rest, d => destroy faults rest (afterDetach (faults i) i d)

/-! ## The network of a sandbox -/

/-- The devices of the host, the network of the sandbox, and the network in its dump. -/
structure State where
  devices : Devices
  network : Option (List NetworkInterface) := none
  dumped : Option (Option (List NetworkInterface)) := none

inductive Label where
  | attach (intfs : List (NetworkInterface × Outcome))
  | destroy (faults : NetworkInterface → Option BindFault)
  | dump
  | recover

/-- The interfaces are as they are found in the network namespace: a physical one has the driver
that its device is bound to. -/
def Found (d : Devices) (intfs : List (NetworkInterface × Outcome)) : Prop :=
  ∀ p ∈ intfs, ∀ bdf driver, p.1.type = .physical bdf driver → (d bdf).driver = some driver

inductive Step : Label → State → State → Prop where
  -- `prepare_network`: only a network all of whose interfaces are attached is kept
  | attached {s intfs is}
      {d} (hnone : s.network = none) (hfound : Found s.devices intfs)
      (h : attachAll intfs s.devices = (is, d, none)) :
      Step (.attach intfs) s { s with devices := d, network := some is }
  | attachFails {s intfs}
      {is} {d} {e} (hnone : s.network = none)
      (hfound : Found s.devices intfs) (h : attachAll intfs s.devices = (is, d, some e)) :
      Step (.attach intfs) s { s with devices := d }
  -- `destroy_network`
  | destroy {s faults} :
      Step (.destroy faults) s
        { s with devices := Net.destroy faults (s.network.getD []) s.devices, network := none }
  | dump {s} : Step .dump s { s with dumped := some s.network }
  -- the sandboxer restarts
  | recover {s network} (h : s.dumped = some network) :
      Step .recover s
        { s with network := network.map fun is => is.map NetworkInterface.reloaded }

/-! ## What a switch of the driver does -/

variable {d : Devices} {driver bdf : String}

theorem bindDeviceToDriver_none {current : String} (h : (d bdf).driver = some current) :
    bindDeviceToDriver none driver bdf d =
      if current = driver then (d, none)
      else (Function.update d bdf ⟨some driver, some driver⟩, none) := by
  simp only [bindDeviceToDriver, h]

/-- A switch that succeeds. -/
theorem bind_spec (driver : String) (h : (d bdf).driver ≠ none) :
    (bindDeviceToDriver none driver bdf d).2 = none ∧
      ∀ bdf', ((bindDeviceToDriver none driver bdf d).1 bdf').driver =
        if bdf' = bdf then some driver else (d bdf').driver := by
  obtain ⟨current, hcurrent⟩ := Option.ne_none_iff_exists'.mp h
  rw [bindDeviceToDriver_none hcurrent]
  split
  · rename_i hsame
    refine ⟨rfl, fun bdf' => ?_⟩
    by_cases hb : bdf' = bdf
    · rw [if_pos hb, hb, hcurrent, hsame]
    · rw [if_neg hb]
  · refine ⟨rfl, fun bdf' => ?_⟩
    dsimp only
    by_cases hb : bdf' = bdf
    · rw [if_pos hb, hb, Function.update_self]
    · rw [if_neg hb, Function.update_of_ne hb]

/-- Every device has its own driver, or the vfio driver and an interface that knows its own. -/
def Held (native : String → Option String) (d : Devices) (held : List NetworkInterface) : Prop :=
  ∀ bdf, (d bdf).driver = native bdf ∨
    ((d bdf).driver = some vfio ∧
      ∃ driver, native bdf = some driver ∧ ∃ i ∈ held, i.type = .physical bdf driver)

/-- The physical interfaces know the drivers of their devices. -/
def Knows (native : String → Option String) (is : List NetworkInterface) : Prop :=
  ∀ i ∈ is, ∀ bdf driver, i.type = .physical bdf driver → native bdf = some driver

variable {native : String → Option String} {held : List NetworkInterface}

theorem Held.bound (h : Held native d held) {bdf driver : String}
    (hnative : native bdf = some driver) : (d bdf).driver ≠ none := by
  rcases h bdf with hb | ⟨hb, -⟩
  · simp [hb, hnative]
  · simp [hb]

theorem Held.mono {held' : List NetworkInterface} (h : Held native d held)
    (hsub : ∀ i ∈ held, i ∈ held') : Held native d held' := by
  intro bdf
  rcases h bdf with hb | ⟨hb, driver, hnative, i, hi, htype⟩
  · exact Or.inl hb
  · exact Or.inr ⟨hb, driver, hnative, i, hsub i hi, htype⟩

/-- One interface is prepared: its device is held by it. -/
theorem Held.prepare {o : Outcome} {i : NetworkInterface} (h : Held native d held)
    (hbind : o.bind = none)
    (hknows : ∀ bdf driver, i.type = .physical bdf driver → native bdf = some driver) :
    (prepareAttaching o i d).1.type = i.type ∧
      Held native (prepareAttaching o i d).2.1 ((prepareAttaching o i d).1 :: held) ∧
      ((prepareAttaching o i d).2.2 ≠ none → (prepareAttaching o i d).2.1 = d) := by
  have hmore : ∀ j, Held native d (j :: held) := fun j =>
    h.mono fun k hk => List.mem_cons_of_mem j hk
  unfold prepareAttaching
  split
  · split
    · exact ⟨rfl, hmore _, fun he => absurd rfl he⟩
    · exact ⟨rfl, hmore _, fun _ => rfl⟩
  · rename_i bdf driver htype
    have hnative := hknows bdf driver htype
    obtain ⟨hok, hdriver⟩ := bind_spec vfio (h.bound hnative)
    rw [hbind]
    refine ⟨rfl, ?_, fun he => absurd hok he⟩
    intro bdf'
    rw [hdriver]
    by_cases hb : bdf' = bdf
    · subst hb
      rw [if_pos rfl]
      exact Or.inr ⟨rfl, driver, hnative, i, List.mem_cons_self, htype⟩
    · rw [if_neg hb]
      exact hmore i bdf'
  · exact ⟨rfl, hmore _, fun he => absurd rfl he⟩

/-- The devices are held by the interfaces that were prepared, wherever the attach ended. -/
theorem attachAll_held {intfs : List (NetworkInterface × Outcome)}
    (hbind : ∀ p ∈ intfs, p.2.bind = none) (hknows : Knows native (intfs.map Prod.fst))
    (h : Held native d held) :
    Held native (attachAll intfs d).2.1 ((attachAll intfs d).1 ++ held) ∧
      Knows native (attachAll intfs d).1 := by
  induction intfs generalizing d held with
  | nil => exact ⟨h, nofun⟩
  | cons p rest ih =>
    obtain ⟨i, o⟩ := p
    have hi := hknows i List.mem_cons_self
    obtain ⟨htype, hheld, hsame⟩ := h.prepare (hbind _ List.mem_cons_self) hi
    have hprepared : Knows native [(prepareAttaching o i d).1] := by
      intro j hj
      rw [List.mem_singleton.mp hj, htype]
      exact hi
    unfold attachAll
    split
    · rename_i i' d' e heq
      rw [heq] at hsame
      rw [hsame (by simp)]
      exact ⟨h, nofun⟩
    · rename_i i' d' heq
      rw [heq] at hheld hprepared
      split
      · exact ⟨hheld, hprepared⟩
      · have hrest : Knows native (rest.map Prod.fst) := fun j hj =>
          hknows j (List.mem_cons_of_mem _ hj)
        obtain ⟨hheld', hknows'⟩ := ih (fun q hq => hbind q (List.mem_cons_of_mem _ hq)) hrest hheld
        refine ⟨hheld'.mono fun j hj => ?_, ?_⟩
        · simp only [List.mem_append, List.mem_cons, List.cons_append] at hj ⊢
          tauto
        · intro j hj
          rcases List.mem_cons.mp hj with rfl | hj
          · exact hprepared j List.mem_cons_self
          · exact hknows' j hj

/-- One interface is detached: its device has its own driver again. -/
theorem Held.detach {i : NetworkInterface} (h : Held native d (i :: held))
    (hknows : ∀ bdf driver, i.type = .physical bdf driver → native bdf = some driver) :
    Held native (afterDetach none i d) held := by
  unfold afterDetach
  split
  · rename_i bdf driver htype
    have hnative := hknows bdf driver htype
    obtain ⟨-, hdriver⟩ := bind_spec driver (h.bound hnative)
    intro bdf'
    rw [hdriver]
    by_cases hb : bdf' = bdf
    · rw [if_pos hb, hb]
      exact Or.inl hnative.symm
    · rw [if_neg hb]
      rcases h bdf' with hown | ⟨hvfio, driver', hnative', j, hj, htype'⟩
      · exact Or.inl hown
      · rcases List.mem_cons.mp hj with rfl | hj
        · rw [htype] at htype'
          cases htype'
          exact absurd rfl hb
        · exact Or.inr ⟨hvfio, driver', hnative', j, hj, htype'⟩
  · rename_i hother
    intro bdf
    rcases h bdf with hown | ⟨hvfio, driver, hnative, j, hj, htype⟩
    · exact Or.inl hown
    · rcases List.mem_cons.mp hj with rfl | hj
      · exact absurd htype (hother bdf driver)
      · exact Or.inr ⟨hvfio, driver, hnative, j, hj, htype⟩

theorem destroy_held {is : List NetworkInterface} (hknows : Knows native is)
    (h : Held native d is) : Held native (Net.destroy (fun _ => none) is d) [] := by
  induction is generalizing d with
  | nil => exact h
  | cons i rest ih =>
    exact ih (fun j hj => hknows j (List.mem_cons_of_mem i hj))
      (h.detach (hknows i List.mem_cons_self))

/-! ## Runs -/

/-- No interface takes its device from its own driver. -/
def Harmless (is : List NetworkInterface) : Prop :=
  ∀ i ∈ is, ∀ bdf driver, i.type = .physical bdf driver → driver = vfio

/-- Every switch of a driver succeeds; no attach fails after it has taken a device, and the
sandboxer does not restart while it has one. -/
def Careful : Label → StatePred State
  | .attach intfs, s =>
    (∀ p ∈ intfs, p.2.bind = none) ∧
      ((attachAll intfs s.devices).2.2 ≠ none → Harmless (attachAll intfs s.devices).1)
  | .destroy faults, _ => ∀ i, faults i = none
  | .dump, _ => True
  | .recover, s => Harmless (s.network.getD [])

structure Inv (native : String → Option String) (s : State) : Prop where
  held : Held native s.devices (s.network.getD [])
  knows : Knows native (s.network.getD [])

/-- What only harmless interfaces hold is where it belongs. -/
theorem Held.of_harmless (h : Held native d held) (hharmless : Harmless held)
    (held' : List NetworkInterface) : Held native d held' := by
  intro bdf
  rcases h bdf with hown | ⟨hvfio, driver, hnative, i, hi, htype⟩
  · exact Or.inl hown
  · refine Or.inl ?_
    rw [hvfio, hnative, hharmless i hi bdf driver htype]

theorem Knows.of_found {intfs : List (NetworkInterface × Outcome)} (h : Held native d [])
    (hfound : Found d intfs) : Knows native (intfs.map Prod.fst) := by
  intro i hi bdf driver htype
  obtain ⟨p, hp, rfl⟩ := List.mem_map.mp hi
  have hdriver := hfound p hp bdf driver htype
  rcases h bdf with hown | ⟨-, -, -, j, hj, -⟩
  · rw [← hown, hdriver]
  · exact absurd hj List.not_mem_nil

theorem inv_step {l : Label} {s s' : State} (hok : Careful l s) (hstep : Step l s s')
    (hinv : Inv native s) : Inv native s' := by
  obtain ⟨hheld, hknows⟩ := hinv
  cases hstep with
  | attached hnone hfound h =>
    rw [hnone, Option.getD_none] at hheld
    obtain ⟨hheld', hknows'⟩ := attachAll_held hok.1 (.of_found hheld hfound) hheld
    rw [List.append_nil, h] at hheld'
    rw [h] at hknows'
    exact ⟨hheld', hknows'⟩
  | attachFails hnone hfound h =>
    rw [hnone, Option.getD_none] at hheld
    obtain ⟨hheld', -⟩ := attachAll_held hok.1 (.of_found hheld hfound) hheld
    have hharmless := hok.2
    rw [List.append_nil, h] at hheld'
    rw [h] at hharmless
    refine ⟨hheld'.of_harmless (hharmless (by simp)) _, ?_⟩
    rw [hnone]
    exact nofun
  | @destroy _ faults =>
    have hfaults : faults = fun _ => none := funext hok
    subst hfaults
    exact ⟨destroy_held hknows hheld, nofun⟩
  | dump => exact ⟨hheld, hknows⟩
  | @recover _ network h =>
    refine ⟨hheld.of_harmless hok _, ?_⟩
    -- what is read back from a dump is of no known type
    intro i hi bdf driver htype
    rcases network with _ | is
    · exact absurd hi List.not_mem_nil
    · obtain ⟨j, -, rfl⟩ := List.mem_map.mp hi
      cases htype

/-- A device of one interface, with its own driver. -/
def nic : Devices := fun bdf => ⟨if bdf = "01:00.0" then some "ixgbe" else none, none⟩

def eth0 : NetworkInterface := { name := "eth0", type := .physical "01:00.0" "ixgbe" }

theorem found_eth0 (o : Outcome) : Found nic [(eth0, o)] := by
  intro p hp bdf driver htype
  rw [List.mem_singleton.mp hp] at htype
  cases htype
  rfl

theorem attachAll_eth0 :
    attachAll [(eth0, {})] nic =
      ([eth0], Function.update nic "01:00.0" ⟨some vfio, some vfio⟩, none) := by
  rfl

end Kuasar.Net

import Kuasar.Data.Hex
import Kuasar.Data.Slots
import Kuasar.Sandbox.Storages

/-!
# Hypervisor.Bus — buses and the devices on their slots

A VM keeps a record of its buses: which device is on which slot. QEMU and StratoVirt share the
record and the function that empties the slots of a device (`detachFromBus`).

A device is plugged in and out by QMP commands to the hypervisor, any of which can fail
(`QmpOutcomes`).

A position is the number of a bus and the number of a slot on it. `occupant` is the device at a
position; the lemmas say what taking a slot and emptying the slots of a device do to it.
-/

namespace Kuasar.Hypervisor

open Slots FirstMatch
open Storages (BusType)

/-- A bus. A slot is empty or occupied by the device of an id. -/
structure Bus where
  type : BusType
  id : String
  busAddr : String
  slots : List (Option String)
  deriving DecidableEq, Repr

namespace Bus

/-- `empty_slot`, which passes over the first slot. -/
def emptySlot (bus : Bus) : Option ℕ := firstEmpty 1 bus.slots

def occupy (index : ℕ) (deviceId : String) (bus : Bus) : Bus :=
  { bus with slots := bus.slots.set index (some deviceId) }

/-- The first slot of the device is emptied. -/
def vacate (deviceId : String) (bus : Bus) : Bus :=
  { bus with slots := release deviceId bus.slots }

/-- What is fixed of a bus. -/
def frame (bus : Bus) : BusType × String × String := (bus.type, bus.id, bus.busAddr)

end Bus

/-- `detach_from_bus`. -/
def detachFromBus (deviceId : String) (buses : List Bus) : List Bus :=
  buses.map (Bus.vacate deviceId)

/-- Which of the commands of a call succeed. -/
structure QmpOutcomes where
  addBackend : Bool
  addDevice : Bool
  deleteDevice : Bool
  deleteBackend : Bool
  deriving DecidableEq, Repr

/-- All commands succeed. -/
def QmpOutcomes.accepted : QmpOutcomes := ⟨true, true, true, true⟩

/-- `execute_hot_detach` of every device: first the device, then its backend. -/
def executeHotDetach (o : QmpOutcomes) : Bool := o.deleteDevice && o.deleteBackend

/-- A number as `{:02x}` writes it. -/
def twoDigits (n : ℕ) : String := String.ofList (Hex.padded 2 n)

/-- A number as `{:#02x}` writes it: the two characters are taken by the leading `0x`. -/
def withBase (n : ℕ) : String := "0x" ++ String.ofList (Hex.digits n)

/-- The device at a position. -/
def occupant (buses : List Bus) (b i : ℕ) : Option String :=
  (buses[b]?.bind fun bus => bus.slots[i]?).join

section

variable {buses : List Bus} {bus : Bus} {b i : ℕ} {deviceId : String}

theorem occupant_eq_some :
    occupant buses b i = some deviceId ↔
      ∃ bus, buses[b]? = some bus ∧ bus.slots[i]? = some (some deviceId) := by
  rw [occupant, Option.join_eq_some_iff, Option.bind_eq_some_iff]

theorem occupant_of_bus (h : buses[b]? = some bus) : occupant buses b i = (bus.slots[i]?).join := by
  rw [occupant, h, Option.bind_some]

theorem frames_detachFromBus (deviceId : String) (buses : List Bus) :
    (detachFromBus deviceId buses).map Bus.frame = buses.map Bus.frame := by
  rw [detachFromBus, List.map_map]
  rfl

/-- Detaching a device that has one slot at most empties it and leaves the others. -/
theorem occupant_detachFromBus
    (honce : ∀ b j k, occupant buses b j = some deviceId → occupant buses b k = some deviceId →
      j = k) :
    occupant (detachFromBus deviceId buses) b i =
      if occupant buses b i = some deviceId then none else occupant buses b i := by
  rw [occupant, detachFromBus, List.getElem?_map]
  cases hbus : buses[b]? with
  | none => simp [occupant, hbus]
  | some bus =>
    have honce' : ∀ j k : ℕ, bus.slots[j]? = some (some deviceId) →
        bus.slots[k]? = some (some deviceId) → j = k := by
      intro j k hj hk
      exact honce b j k (occupant_eq_some.mpr ⟨bus, hbus, hj⟩)
        (occupant_eq_some.mpr ⟨bus, hbus, hk⟩)
    show ((release deviceId bus.slots)[i]?).join = _
    rw [getElem?_release honce', occupant_of_bus hbus]
    by_cases hat : bus.slots[i]? = some (some deviceId)
    · rw [if_pos hat, hat]
      simp
    · have hne : (bus.slots[i]?).join ≠ some deviceId := by
        rw [Ne, Option.join_eq_some_iff]
        exact hat
      rw [if_neg hat, if_neg hne]

def isBus (busId : String) (bus : Bus) : Bool := bus.id = busId

theorem frames_occupy (busId : String) (index : ℕ) (deviceId : String) (buses : List Bus) :
    (updateFirst (isBus busId) (Bus.occupy index deviceId) buses).map Bus.frame =
      buses.map Bus.frame :=
  map_updateFirst fun _ => rfl

/-- Taking an existing slot of a bus. -/
theorem occupant_occupy {busId : String} {index b₀ : ℕ} {slot : Option String}
    (hfound : buses.findIdx? (isBus busId) = some b₀) (hbus : buses[b₀]? = some bus)
    (hslot : bus.slots[index]? = some slot) :
    occupant (updateFirst (isBus busId) (Bus.occupy index deviceId) buses) b i =
      if b = b₀ ∧ i = index then some deviceId else occupant buses b i := by
  have hlt : index < bus.slots.length := (List.getElem?_eq_some_iff.mp hslot).1
  rw [occupant, getElem?_updateFirst, hfound]
  by_cases hb : b = b₀
  · rw [hb, if_pos rfl, hbus, occupant_of_bus hbus]
    show ((bus.slots.set index (some deviceId))[i]?).join = _
    by_cases hi : i = index
    · rw [hi, List.getElem?_set_self hlt, if_pos ⟨rfl, rfl⟩]
      rfl
    · rw [List.getElem?_set_ne (Ne.symm hi), if_neg (fun h => hi h.2)]
  · rw [if_neg (fun h => hb (Option.some.inj h).symm), if_neg (fun h => hb h.1)]
    rfl

end

end Kuasar.Hypervisor

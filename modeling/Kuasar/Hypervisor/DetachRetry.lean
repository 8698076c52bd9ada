import Kuasar.Hypervisor.QemuSlots
import Kuasar.Hypervisor.StratovirtPorts

/-!
# Hypervisor.DetachRetry — detaching a device again after a failure

A hot-attached device is two things in the hypervisor: a front end, and the backend it is for.
`execute_hot_detach` deletes the front end and then the backend. When a command fails, the device
goes back on the list of the VM and nothing else is undone. The hypervisor refuses to delete what
it does not have.

So the retry works exactly if none of the attempts before it deleted the front end
(`detach_retry_iff`). Once one did, every later attempt fails on the front end and never gets to
the backend (`Halved.hotDetach`).
-/

namespace Kuasar.Hypervisor

open FirstMatch

/-! ## What a hypervisor holds -/

/-- A block node or a character device. -/
inductive Backend where
  | node (name : String)
  | chardev (id : String)
  deriving DecidableEq, Repr

/-- The front ends and the backends of a hypervisor. -/
structure Holdings where
  frontEnds : Finset String
  backends : Finset Backend
  deriving DecidableEq

/-- The front end and the backend of a device. -/
structure Parts where
  frontEnd : String
  backend : Backend
  deriving DecidableEq, Repr

/-- The parts of a `VirtioBlockDevice`, of QEMU or StratoVirt. -/
def blockParts (id : String) : Parts := ⟨"virtio-" ++ id, .node id⟩

/-- The parts of a `CharDevice`. -/
def charParts (id chardevId : String) : Parts := ⟨id, .chardev chardevId⟩

/-- What `execute_hot_detach` deletes of a QEMU device. -/
def Qemu.Device.parts : Qemu.Device → Parts
  | .block id _ _ => blockParts id
  | .char id chardevId _ _ => charParts id chardevId

/-- An attempt to detach a device: whether there is a connection, and whether the hypervisor
accepts the deletion of a front end and of a backend. -/
structure Attempt where
  client : Bool
  frontEnd : Bool
  backend : Bool
  deriving DecidableEq, Repr

def Attempt.accepting : Attempt := ⟨true, true, true⟩

def Holdings.deleteFrontEnd (accepts : Bool) (id : String) (held : Holdings) : Option Holdings :=
  if accepts ∧ id ∈ held.frontEnds then
    some { held with frontEnds := held.frontEnds.erase id }
  else none

def Holdings.deleteBackend (accepts : Bool) (backend : Backend) (held : Holdings) :
    Option Holdings :=
  if accepts ∧ backend ∈ held.backends then
    some { held with backends := held.backends.erase backend }
  else none

/-- The commands of `execute_hot_detach`, and how they went. -/
def Holdings.executeHotDetach (a : Attempt) (parts : Parts) (held : Holdings) :
    Holdings × QmpOutcomes :=
  match held.deleteFrontEnd a.frontEnd parts.frontEnd with
  | none => (held, ⟨false, false, false, false⟩)
  | some held =>
    match held.deleteBackend a.backend parts.backend with
    | none => (held, ⟨false, false, true, false⟩)
    | some held => (held, ⟨false, false, true, true⟩)

/-! ## The VM and its hypervisor -/

inductive Vm where
  | qemu (vm : Qemu.VM)
  | stratovirt (vm : Stratovirt.VM)

namespace Vm

def connect (client : Bool) : Vm → Vm
  | qemu vm => qemu { vm with client := client }
  | stratovirt vm => stratovirt { vm with client := client }

/-- What the hypervisor has of the hot-attached device of an id. -/
def parts (id : String) : Vm → Option Parts
  | qemu vm => (vm.hotAttached.find? (Qemu.isDevice id)).map fun d => d.device.parts
  | stratovirt vm => if id ∈ vm.hotAttached then some (blockParts id) else none

def DistinctIds : Vm → Prop
  | qemu vm => (vm.hotAttached.map Qemu.HotDevice.id).Nodup
  | stratovirt vm => vm.hotAttached.Nodup

/-- `hot_detach`, and whether it succeeded. -/
def hotDetach (o : QmpOutcomes) (id : String) : Vm → Vm × Bool
  | qemu vm => (qemu (Qemu.hotDetach o id vm).1, (Qemu.hotDetach o id vm).2.isOk)
  | stratovirt vm =>
    (stratovirt (Stratovirt.hotDetach o id vm).1, (Stratovirt.hotDetach o id vm).2.isOk)

end Vm

/-- A VM with what its hypervisor holds. -/
structure World where
  vm : Vm
  held : Holdings

/-- The commands that are sent for the device of an id: none without a connection or a device. -/
def World.commands (a : Attempt) (id : String) (w : World) : Holdings × QmpOutcomes :=
  match a.client, w.vm.parts id with
  | true, some parts => w.held.executeHotDetach a parts
  | _, _ => (w.held, ⟨false, false, false, false⟩)

/-- `hot_detach` of the device of an id, and whether it succeeded. -/
def World.hotDetach (a : Attempt) (id : String) (w : World) : World × Bool :=
  let (held, o) := w.commands a id
  let (vm, ok) := (w.vm.connect a.client).hotDetach o id
  (⟨vm, held⟩, ok)

/-- The attempts to detach the device of an id, one after the other. -/
def World.attempts (as : List Attempt) (id : String) (w : World) : World :=
  as.foldl (fun w a => (w.hotDetach a id).1) w

def Attempt.Fails (a : Attempt) : Prop := ¬(a.client ∧ a.frontEnd ∧ a.backend)

def Attempt.DeletesFrontEnd (a : Attempt) : Prop := a.client ∧ a.frontEnd

instance (a : Attempt) : Decidable a.Fails := inferInstanceAs (Decidable ¬_)

instance (a : Attempt) : Decidable a.DeletesFrontEnd := inferInstanceAs (Decidable (_ ∧ _))

/-- The device is on the list, and the hypervisor has its front end and its backend. -/
structure Whole (id : String) (parts : Parts) (w : World) : Prop where
  listed : w.vm.parts id = some parts
  distinct : w.vm.DistinctIds
  frontEnd : parts.frontEnd ∈ w.held.frontEnds
  backend : parts.backend ∈ w.held.backends

/-- The device is on the list and its backend is there without the front end. -/
structure Halved (id : String) (parts : Parts) (w : World) : Prop where
  listed : w.vm.parts id = some parts
  distinct : w.vm.DistinctIds
  frontEnd : parts.frontEnd ∉ w.held.frontEnds
  backend : parts.backend ∈ w.held.backends

/-! ## The list of the VM -/

section

variable {o : QmpOutcomes} {id : String} {parts : Parts}

theorem Qemu.find?_isDevice {l : List Qemu.HotDevice} {d : Qemu.HotDevice}
    (hnodup : (l.map Qemu.HotDevice.id).Nodup) (hmem : d ∈ l) :
    l.find? (Qemu.isDevice d.id) = some d :=
  find?_of_nodup_map hnodup hmem

/-- A device whose commands failed goes to the end of the list. -/
theorem Qemu.hotDetach_failed {vm : Qemu.VM} {d : Qemu.HotDevice}
    (hfind : vm.hotAttached.find? (Qemu.isDevice id) = some d)
    (hfail : (vm.client && executeHotDetach o) = false) :
    ∃ e, Qemu.hotDetach o id vm = ({ vm with
      hotAttached := vm.hotAttached.eraseP (Qemu.isDevice id) ++ [d] }, .error e) := by
  unfold Qemu.hotDetach
  simp only [hfind]
  rcases hclient : vm.client with _ | _
  · exact ⟨.noClient, rfl⟩
  · rw [hclient, Bool.true_and] at hfail
    rw [hfail]
    exact ⟨.qmp, rfl⟩

theorem Stratovirt.hotDetach_failed {vm : Stratovirt.VM} (hmem : id ∈ vm.hotAttached)
    (hfail : (vm.client && executeHotDetach o) = false) :
    ∃ e, Stratovirt.hotDetach o id vm = ({ vm with
      hotAttached := vm.hotAttached.erase id ++ [id] }, .error e) := by
  unfold Stratovirt.hotDetach
  rw [if_neg (not_not.mpr hmem)]
  rcases hclient : vm.client with _ | _
  · exact ⟨.noClient, rfl⟩
  · rw [hclient, Bool.true_and] at hfail
    rw [hfail]
    exact ⟨.qmp, rfl⟩

/-- A device that could not be detached is on the list as before. -/
theorem Vm.hotDetach_failed {vm : Vm} {client : Bool} (hparts : vm.parts id = some parts)
    (hdistinct : vm.DistinctIds) (hfail : (client && executeHotDetach o) = false) :
    ∃ vm', (vm.connect client).hotDetach o id = (vm', false) ∧ vm'.parts id = some parts ∧
      vm'.DistinctIds := by
  cases vm with
  | qemu vm =>
    obtain ⟨d, hfind, rfl⟩ := Option.map_eq_some_iff.mp hparts
    have hid : d.id = id := by simpa [Qemu.isDevice] using List.find?_some hfind
    have hperm : (vm.hotAttached.eraseP (Qemu.isDevice id) ++ [d]).Perm vm.hotAttached :=
      (List.perm_append_singleton d _).trans (cons_eraseP_perm hfind)
    have hnodup : ((vm.hotAttached.eraseP (Qemu.isDevice id) ++ [d]).map
        Qemu.HotDevice.id).Nodup := (hperm.map _).nodup_iff.mpr hdistinct
    obtain ⟨e, heq⟩ := @Qemu.hotDetach_failed o id { vm with client := client } d hfind hfail
    refine ⟨.qemu { vm with
      client := client
      hotAttached := vm.hotAttached.eraseP (Qemu.isDevice id) ++ [d] }, ?_, ?_, hnodup⟩
    · rw [connect, hotDetach, heq]
      rfl
    · have hfind' := Qemu.find?_isDevice hnodup (List.mem_append_right _ List.mem_cons_self)
      rw [hid] at hfind'
      exact Option.map_eq_some_iff.mpr ⟨d, hfind', rfl⟩
  | stratovirt vm =>
    have hmem : id ∈ vm.hotAttached := by
      by_contra hmem
      rw [Vm.parts, if_neg hmem] at hparts
      cases hparts
    obtain ⟨e, heq⟩ := @Stratovirt.hotDetach_failed o id { vm with client := client } hmem hfail
    refine ⟨.stratovirt { vm with
      client := client
      hotAttached := vm.hotAttached.erase id ++ [id] }, ?_, ?_, ?_⟩
    · rw [connect, hotDetach, heq]
      rfl
    · rw [← hparts, Vm.parts, Vm.parts, if_pos hmem]
      exact if_pos ((Stratovirt.mem_erase_append hmem).mpr hmem)
    · exact ((List.perm_append_singleton id _).trans
        (List.perm_cons_erase hmem).symm).nodup_iff.mpr hdistinct

/-- A device is off the list when both its commands succeeded. -/
theorem Vm.hotDetach_done {vm : Vm} (hdone : executeHotDetach o = true) :
    ((vm.connect true).hotDetach o id).2 = true := by
  cases vm with
  | qemu vm =>
    simp only [connect, hotDetach, Qemu.hotDetach]
    split
    · rfl
    · rw [hdone]
      rfl
  | stratovirt vm =>
    simp only [connect, hotDetach, Stratovirt.hotDetach]
    split
    · rfl
    · rw [hdone]
      rfl

/-! ## Attempts -/

variable {a : Attempt} {w : World}

theorem World.hotDetach_of_commands {held : Holdings} (hheld : w.commands a id = (held, o)) :
    w.hotDetach a id = (⟨((w.vm.connect a.client).hotDetach o id).1, held⟩,
      ((w.vm.connect a.client).hotDetach o id).2) := by
  rw [World.hotDetach, hheld]

/-- After an attempt whose commands failed the device is on the list as before. -/
theorem World.hotDetach_failed {held : Holdings} (hlisted : w.vm.parts id = some parts)
    (hdistinct : w.vm.DistinctIds) (hheld : w.commands a id = (held, o))
    (hfail : executeHotDetach o = false) :
    ∃ vm', w.hotDetach a id = (⟨vm', held⟩, false) ∧ vm'.parts id = some parts ∧
      vm'.DistinctIds := by
  have hnone : (a.client && executeHotDetach o) = false := by rw [hfail, Bool.and_false]
  obtain ⟨vm', heq, hrest⟩ := Vm.hotDetach_failed hlisted hdistinct hnone
  refine ⟨vm', ?_, hrest⟩
  rw [World.hotDetach_of_commands hheld, heq]

/-- An attempt that does not delete the front end changes nothing. -/
theorem Whole.hotDetach_of_kept (h : Whole id parts w) (hkept : ¬a.DeletesFrontEnd) :
    Whole id parts (w.hotDetach a id).1 := by
  have hcommands : w.commands a id = (w.held, ⟨false, false, false, false⟩) := by
    unfold World.commands
    rw [h.listed]
    rcases hclient : a.client with _ | _
    · rfl
    · have hfront : a.frontEnd = false := by
        rw [Attempt.DeletesFrontEnd, hclient] at hkept
        simpa using hkept
      simp [Holdings.executeHotDetach, Holdings.deleteFrontEnd, hfront]
  obtain ⟨vm', heq, hlisted, hdistinct⟩ :=
    World.hotDetach_failed h.listed h.distinct hcommands rfl
  rw [heq]
  exact ⟨hlisted, hdistinct, h.frontEnd, h.backend⟩

/-- An attempt that fails and deletes the front end leaves the backend. -/
theorem Whole.hotDetach_of_deleted (h : Whole id parts w) (hfails : a.Fails)
    (hdeletes : a.DeletesFrontEnd) : Halved id parts (w.hotDetach a id).1 := by
  obtain ⟨hclient, hfront⟩ := hdeletes
  have hback : a.backend = false := by
    rw [Attempt.Fails, hclient, hfront] at hfails
    simpa using hfails
  have hcommands : w.commands a id = ({ w.held with
      frontEnds := w.held.frontEnds.erase parts.frontEnd }, ⟨false, false, true, false⟩) := by
    unfold World.commands
    rw [h.listed, hclient]
    simp [Holdings.executeHotDetach, Holdings.deleteFrontEnd, Holdings.deleteBackend, hfront, hback,
      h.frontEnd]
  obtain ⟨vm', heq, hlisted, hdistinct⟩ :=
    World.hotDetach_failed h.listed h.distinct hcommands rfl
  rw [heq]
  exact ⟨hlisted, hdistinct, Finset.notMem_erase _ _, h.backend⟩

/-- Without its front end a device cannot be detached any more, and its backend stays. -/
theorem Halved.hotDetach (h : Halved id parts w) :
    (w.hotDetach a id).2 = false ∧ Halved id parts (w.hotDetach a id).1 := by
  have hcommands : w.commands a id = (w.held, ⟨false, false, false, false⟩) := by
    unfold World.commands
    rw [h.listed]
    rcases a.client with _ | _
    · rfl
    · simp [Holdings.executeHotDetach, Holdings.deleteFrontEnd, h.frontEnd]
  obtain ⟨vm', heq, hlisted, hdistinct⟩ :=
    World.hotDetach_failed h.listed h.distinct hcommands rfl
  rw [heq]
  exact ⟨rfl, hlisted, hdistinct, h.frontEnd, h.backend⟩

/-- A device that is whole is detached when the hypervisor accepts the commands. -/
theorem Whole.hotDetach_accepting (h : Whole id parts w) :
    (w.hotDetach .accepting id).2 = true ∧
      parts.frontEnd ∉ (w.hotDetach .accepting id).1.held.frontEnds ∧
      parts.backend ∉ (w.hotDetach .accepting id).1.held.backends := by
  have hcommands : w.commands .accepting id = (⟨w.held.frontEnds.erase parts.frontEnd,
      w.held.backends.erase parts.backend⟩, ⟨false, false, true, true⟩) := by
    unfold World.commands
    rw [h.listed]
    simp [Attempt.accepting, Holdings.executeHotDetach, Holdings.deleteFrontEnd,
      Holdings.deleteBackend, h.frontEnd, h.backend]
  rw [World.hotDetach_of_commands hcommands]
  exact ⟨Vm.hotDetach_done rfl, Finset.notMem_erase _ _, Finset.notMem_erase _ _⟩

theorem Halved.attempts (h : Halved id parts w) (as : List Attempt) :
    Halved id parts (w.attempts as id) := by
  induction as generalizing w with
  | nil => exact h
  | cons a as ih => exact ih h.hotDetach.2

/-- After attempts that failed a device is whole if none of them deleted the front end, and
otherwise without it. -/
theorem Whole.attempts (h : Whole id parts w) {as : List Attempt} (hfails : ∀ a ∈ as, a.Fails) :
    ((∀ a ∈ as, ¬a.DeletesFrontEnd) ∧ Whole id parts (w.attempts as id)) ∨
      ((∃ a ∈ as, a.DeletesFrontEnd) ∧ Halved id parts (w.attempts as id)) := by
  induction as generalizing w with
  | nil => exact .inl ⟨by simp, h⟩
  | cons a as ih =>
    by_cases hdeletes : a.DeletesFrontEnd
    · have hhalved := h.hotDetach_of_deleted (hfails a List.mem_cons_self) hdeletes
      exact .inr ⟨⟨a, List.mem_cons_self, hdeletes⟩, hhalved.attempts as⟩
    · have hrest : ∀ a' ∈ as, a'.Fails := fun a' ha' => hfails a' (List.mem_cons_of_mem a ha')
      rcases ih (h.hotDetach_of_kept hdeletes) hrest with
        ⟨hkept, hwhole⟩ | ⟨⟨a', ha', hdel⟩, hhalved⟩
      · exact .inl ⟨List.forall_mem_cons.mpr ⟨hdeletes, hkept⟩, hwhole⟩
      · exact .inr ⟨⟨a', List.mem_cons_of_mem a ha', hdel⟩, hhalved⟩

/-- A device can be detached after any number of failed attempts, once the hypervisor accepts
commands again, exactly if none of the attempts got past the deletion of the front end. -/
theorem detach_retry_iff (id : String) (parts : Parts) (w : World) (as : List Attempt)
    (h : Whole id parts w) (hfails : ∀ a ∈ as, a.Fails) :
    ((((w.attempts as id).hotDetach .accepting id).2 = true ∧
        parts.frontEnd ∉ ((w.attempts as id).hotDetach .accepting id).1.held.frontEnds ∧
        parts.backend ∉ ((w.attempts as id).hotDetach .accepting id).1.held.backends) ↔
      ∀ a ∈ as, ¬a.DeletesFrontEnd) := by
  rcases h.attempts hfails with ⟨hkept, hwhole⟩ | ⟨⟨a, ha, hdel⟩, hhalved⟩
  · exact ⟨fun _ => hkept, fun _ => hwhole.hotDetach_accepting⟩
  · constructor
    · rintro ⟨hok, -, -⟩
      rw [hhalved.hotDetach.1] at hok
      cases hok
    · intro hkept
      exact absurd hdel (hkept a ha)

end

/-- A VM with two disks, both whole. -/
def diskWorld : World :=
  ⟨.qemu Qemu.twoDisks, ⟨{"virtio-blk1", "virtio-blk3"}, {.node "blk1", .node "blk3"}⟩⟩

theorem whole_diskWorld : Whole "blk1" (blockParts "blk1") diskWorld where
  listed := by decide
  distinct := by
    unfold Vm.DistinctIds diskWorld
    decide
  frontEnd := by decide
  backend := by decide

/-- A disk is detached without a connection, with the deletion of its front end refused, and then
once more. -/
theorem detach_retry_iff_blk1 :
    ((diskWorld.attempts [⟨false, true, true⟩, ⟨true, false, true⟩] "blk1").hotDetach
      .accepting "blk1").2 = true :=
  ((detach_retry_iff "blk1" (blockParts "blk1") diskWorld [⟨false, true, true⟩, ⟨true, false, true⟩]
    whole_diskWorld (by decide)).mpr (by decide)).1

/-- The deletion of the block node of a disk failed. The hypervisor accepts commands again, and
detaching the disk fails: its front end is gone. The block node stays. -/
theorem failed_backend_deletion_final :
    Whole "blk1" (blockParts "blk1") diskWorld ∧
      ((diskWorld.hotDetach ⟨true, true, false⟩ "blk1").1.hotDetach .accepting "blk1").2 = false ∧
      Backend.node "blk1" ∈ ((diskWorld.hotDetach ⟨true, true, false⟩ "blk1").1.hotDetach
        .accepting "blk1").1.held.backends :=
  ⟨whole_diskWorld, by decide, by decide⟩

end Kuasar.Hypervisor

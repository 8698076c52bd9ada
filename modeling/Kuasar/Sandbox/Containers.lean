import Kuasar.Data.Chain
import Kuasar.Sandbox.Storages
import Kuasar.Tla.Core

/-!
# Sandbox.Containers — appending and removing the containers of a sandbox

`append_container` runs a chain of handlers (`Data.Chain`): the container is recorded, a storage
is attached for each of its mounts, its spec is rewritten to the storages, its pipes are attached
and its configuration is written. When a handler fails the ones before it are rolled back: the
references of the mounts are dropped and the container is forgotten.

`remove_container` drops the references and forgets the container; the guest creates a container
on its own, and takes over the process of an orphan if the container was registered for one.

`append_error` says what a failed call comes to: storages attached for the mounts up to the
failure, and released in reverse.
-/

namespace Kuasar.Storages

open Chain

/-! ## The handlers -/

structure ContainerOption where
  rootfs : List Mount
  spec : Option Spec
  io : Option Io := none
  deriving DecidableEq

/-- The outcome of every fallible step of `append_container`; `host` goes by the position of the
mount, `pipe` by that of the pipe. -/
structure AppendOutcomes where
  bundle : Bool := true
  host : ℕ → Host := fun _ => {}
  storageFile : Bool := true
  pipe : ℕ → Bool := fun _ => true
  ioFile : Bool := true
  config : Bool := true
  pushConfig : Bool := true
  dump : Bool := true
  detach : DetachOutcomes := {}

/-- Why a container could not be appended, with the position of the mount or the pipe. -/
inductive AppendError where
  | bundle
  | noContainer
  | mount (i : ℕ) (e : AttachError)
  | rootfsStorage
  | storageFile
  | pipe (i : ℕ)
  | ioFile
  | noSpec
  | config
  | noClient
  | pushConfig
  | dump
  deriving DecidableEq, Repr

/-- A mount of a container to be appended, with what is answered while it is attached. -/
structure MountCall where
  index : ℕ
  mount : Mount
  isRootfsMount : Bool
  host : Host

def ContainerOption.mounts (option : ContainerOption) : List (Mount × Bool) :=
  option.rootfs.map (·, true) ++ ((option.spec.map Spec.mounts).getD []).map (·, false)

section Handlers

variable (o : AppendOutcomes) (c : String) (option : ContainerOption)

/-- The mounts with what is answered. -/
def ContainerOption.calls : List MountCall :=
  option.mounts.mapIdx fun i p => ⟨i, p.1, p.2, o.host i⟩

def Sandbox.withContainer (s : Sandbox) : Sandbox :=
  { s with containers := s.containers.insert c ⟨option.rootfs, option.spec, option.io, [], [], []⟩ }

/-- `MetadataAddHandler`. -/
def metadataAddHandler : Handler Sandbox AppendError where
  handle s := if !o.bundle then (s, some .bundle) else (s.withContainer c option, none)
  rollback s := { s with containers := s.containers.erase c }

/-- `NamespaceHandler`, which rewrites the namespaces of the spec. -/
def namespaceHandler : Handler Sandbox AppendError where
  handle s :=
    match s.containers.lookup c with
    | none => (s, some .noContainer)
    | some _ => (s, none)
  rollback s := s

/-- `MountHandler`. -/
def mountHandler (call : MountCall) : Handler Sandbox AppendError where
  handle s :=
    match attachStorage call.host c call.mount call.isRootfsMount s with
    | (s, none) => (s, none)
    | (s, some e) => (s, some (.mount call.index e))
  rollback s := (deferenceStorage o.detach c call.mount s).1

/-- The storage of a mount is written into the spec; a shared memory of the host is replaced by
that of the guest. -/
def rewriteMount (storages : List Storage) (m : Mount) : Mount :=
  let m :=
    match storages.find? (·.isForMount m) with
    | some x => { m with source := x.mountPoint, options := m.options ++ ["bind"] }
    | none => m
  if m.isBindShm then { m with source := "/dev/shm", options := m.options ++ ["rbind"] } else m

def sourceStorage (storages : List Storage) (m : Mount) : Option Storage :=
  if (rewriteMount storages m).source = "/dev/shm" then none
  else storages.find? (·.isForMount m)

/-- The storages that the guest has to mount, each once: `contains_guest_storage`. -/
def addGuestStorage (found : List Storage) (x : Storage) : List Storage :=
  if x.needGuestHandle && !found.any fun y =>
      y.hostSource = x.hostSource && y.type = x.type && y.mountPoint = x.mountPoint
  then found ++ [x] else found

/-- The storages of the root file system; there has to be one for each of its mounts. -/
def rootStorages (storages : List Storage) (rootfs : List Mount) :
    Option (List (Mount × Storage)) :=
  rootfs.mapM fun m => (storages.find? (·.isForMount m)).map (m, ·)

def rewriteContainer (storages : List Storage) (k : Container) (roots : List (Mount × Storage)) :
    Container :=
  let mounts := (k.spec.map Spec.mounts).getD []
  let found := mounts.filterMap fun m => storages.find? (·.isForMount m)
  let rootSource := (roots.getLast?.map fun r => r.2.mountPoint).getD "rootfs"
  { k with
    spec := k.spec.map fun spec =>
      { mounts := mounts.map (rewriteMount storages)
        root := spec.root.map fun _ => rootSource
        storages := (found ++ roots.map Prod.snd).foldl addGuestStorage [] }
    sources := mounts.filterMap fun m => (sourceStorage storages m).map (·.id)
    roots := roots.map fun r => (r.1, r.2.id) }

/-- `StorageHandler`. -/
def storageHandler : Handler Sandbox AppendError where
  handle s :=
    match s.containers.lookup c with
    | none => (s, some .noContainer)
    | some k =>
      match rootStorages s.storages k.rootfs with
      | none => (s, some .rootfsStorage)
      | some roots =>
        let k := rewriteContainer s.storages k roots
        if !o.storageFile then ({ s with containers := s.containers.insert c k }, some .storageFile)
        else ({ s with containers := s.containers.insert c { k with rootfs := [] } }, none)
  rollback s := s

/-- Only a path without a scheme is a pipe. -/
def isPipe (path : String) : Bool := path ≠ "" && !containsText "://" path

/-- `attach_pipe`: the devices so far, and the name of the pipe in the guest. -/
def attachPipe (i : ℕ) (path : String) (ioDevices : List String) (s : Sandbox) :
    Sandbox × Option (List String × String) :=
  if isPipe path then
    let s := s.incrementId
    let id := Sandbox.serialId s.idGenerator
    match s.hotAttach id (if o.pipe i then some () else none) with
    | none => (s, none)
    | some (s, _) => (s, some (ioDevices ++ [id], "chardev" ++ toString s.idGenerator))
  else (s, some (ioDevices, path))

def detachDevices (o : DetachOutcomes) : List String → Sandbox → Sandbox × Bool
  | [], s => (s, true)
  | id :: ids, s =>
    if !o.hotDetach id then (s, false)
    else detachDevices o ids { s with devices := s.devices.erase id }

/-- The last part of `IoHandler::handle`: the pipes are recorded. -/
def recordPipes (io : Io) (ioDevices : List String) (s : Sandbox) : Sandbox × Option AppendError :=
  match s.containers.lookup c with
  | none => (s, some .noContainer)
  | some k =>
    let k := { k with io := some io }
    if !o.ioFile then ({ s with containers := s.containers.insert c k }, some .ioFile)
    else ({ s with containers := s.containers.insert c { k with ioDevices := ioDevices } }, none)

/-- `IoHandler`. -/
def ioHandler (io : Io) : Handler Sandbox AppendError where
  handle s :=
    match attachPipe o 0 io.stdin [] s with
    | (s, none) => (s, some (.pipe 0))
    | (s, some (ioDevices, stdin)) =>
      match attachPipe o 1 io.stdout ioDevices s with
      | (s, none) => (s, some (.pipe 1))
      | (s, some (ioDevices, stdout)) =>
        match attachPipe o 2 io.stderr ioDevices s with
        | (s, none) => (s, some (.pipe 2))
        | (s, some (ioDevices, stderr)) =>
          recordPipes o c ⟨stdin, stdout, stderr, io.terminal⟩ ioDevices s
  rollback s :=
    match s.containers.lookup c with
    | none => s
    | some k =>
      match detachDevices o.detach k.ioDevices s with
      | (s, false) => s
      | (s, true) =>
        { s with containers := s.containers.insert c { k with ioDevices := [], io := none } }

/-- `SpecHandler`: the configuration is written, and pushed into a guest that shares no files. -/
def specHandler : Handler Sandbox AppendError where
  handle s :=
    match s.containers.lookup c with
    | none => (s, some .noContainer)
    | some k =>
      if k.spec.isNone then (s, some .noSpec)
      else if !o.config then (s, some .config)
      else if s.policy.virtioBlk && !s.client then (s, some .noClient)
      else if s.policy.virtioBlk && !o.pushConfig then (s, some .pushConfig)
      else (s, none)
  rollback s := s

def tailHandlers : List (Handler Sandbox AppendError) :=
  storageHandler o c :: (option.io.map (ioHandler o c)).toList ++ [specHandler o c]

/-- `container_append_handlers`. -/
def appendHandlers : List (Handler Sandbox AppendError) :=
  metadataAddHandler o c option :: namespaceHandler c ::
    ((option.calls o).map (mountHandler o c) ++ tailHandlers o c option)

/-- `append_container`. -/
def appendContainer (s : Sandbox) : Sandbox × Option AppendError :=
  match Chain.run (appendHandlers o c option) s with
  | (s, some e) => (s, some e)
  | (s, none) => if !o.dump then (s, some .dump) else (s, none)

end Handlers

/-! ## The other steps -/

/-- The outcome of every fallible step of `remove_container`. -/
structure RemoveOutcomes where
  bundle : Bool := true
  dump : Bool := true
  detach : DetachOutcomes := {}

inductive RemoveError where
  | storages
  | bundle
  | ioDevices
  | dump
  deriving DecidableEq, Repr

/-- `remove_container`. -/
def removeContainer (o : RemoveOutcomes) (c : String) (s : Sandbox) :
    Sandbox × Option RemoveError :=
  match deferenceContainerStorages o.detach c s with
  | (s, false) => (s, some .storages)
  | (s, true) =>
    if !o.bundle then (s, some .bundle)
    else
      let ioDevices := ((s.containers.lookup c).map Container.ioDevices).getD []
      match detachDevices o.detach ioDevices { s with containers := s.containers.erase c } with
      | (s, false) => (s, some .ioDevices)
      | (s, true) => if !o.dump then (s, some .dump) else (s, none)

/-- `create` of the guest: the process of an orphan that was registered for the container is taken
over, if it is alive; otherwise a process is started. -/
def Guest.create (g : Guest) (c : String) (alive : Bool) (pid : ℕ) : Guest :=
  match g.pendingAdoptions.lookup c with
  | some info =>
    { containers := if alive then g.containers.insert c info.orphanPid else g.containers
      pendingAdoptions := g.pendingAdoptions.erase c
      consumed := g.consumed ++ [(info.orphanContainerId, c)] }
  | none => { g with containers := g.containers.insert c pid }

/-- The steps of a sandbox. -/
inductive Label where
  | append (c : String) (option : ContainerOption) (o : AppendOutcomes)
  | remove (c : String) (o : RemoveOutcomes)
  | create (c : String) (alive : Bool) (pid : ℕ)

def step (l : Label) (s : Sandbox) : Option Sandbox :=
  match l with
  | .append c option o => some (appendContainer o c option s).1
  | .remove c o => some (removeContainer o c s).1
  | .create c alive pid => some { s with guest := s.guest.create c alive pid }

/-- A step of a sandbox as a relation. -/
def next : Label → Tla.Action Sandbox := Tla.StepOf step

/-! ## Steps that leave the storages alone -/

/-- At most `n` ids were handed out, if the counter has room for them. -/
def Advances (n : ℕ) (s s' : Sandbox) : Prop :=
  s.idGenerator + n < 2 ^ 32 → s.idGenerator ≤ s'.idGenerator ∧ s'.idGenerator ≤ s.idGenerator + n

theorem Advances.refl (s : Sandbox) : Advances 0 s s := by
  intro _
  omega

variable {n k : ℕ} {o : AppendOutcomes} {c : String} {option : ContainerOption}
  {s s' s'' : Sandbox} {e : AppendError} {d : DetachOutcomes} {calls : List MountCall}
  {call : MountCall}

theorem Advances.trans (h : Advances n s s') (h' : Advances k s' s'') : Advances (n + k) s s'' := by
  intro hroom
  have h := h (by omega)
  have h' := h' (by omega)
  omega

theorem Advances.mono (h : Advances n s s') (hle : n ≤ k) : Advances k s s' := by
  intro hroom
  have h := h (by omega)
  omega

theorem advances_incrementId (s : Sandbox) : Advances 1 s s.incrementId := by
  intro hroom
  have : s.incrementId.idGenerator = s.idGenerator + 1 := Nat.mod_eq_of_lt hroom
  omega

/-- Nothing changes but the container, the devices and, by at most `n`, the counter. -/
structure Quiet (n : ℕ) (c : String) (s s' : Sandbox) : Prop where
  storages : s'.storages = s.storages
  orphans : s'.orphanContainerIds = s.orphanContainerIds
  adoptions : s'.adoptions = s.adoptions
  guest : s'.guest = s.guest
  containers : s'.containers.erase c = s.containers.erase c
  advances : Advances n s s'

theorem Quiet.refl (c : String) (s : Sandbox) : Quiet 0 c s s :=
  ⟨rfl, rfl, rfl, rfl, rfl, .refl s⟩

theorem Quiet.trans (h : Quiet n c s s') (h' : Quiet k c s' s'') : Quiet (n + k) c s s'' where
  storages := h'.storages.trans h.storages
  orphans := h'.orphans.trans h.orphans
  adoptions := h'.adoptions.trans h.adoptions
  guest := h'.guest.trans h.guest
  containers := h'.containers.trans h.containers
  advances := h.advances.trans h'.advances

theorem Quiet.mono (h : Quiet n c s s') (hle : n ≤ k) : Quiet k c s s' :=
  { h with advances := h.advances.mono hle }

theorem erase_insert (c : String) (k : Container) (l : Finmap fun _ : String => Container) :
    (l.insert c k).erase c = l.erase c := by
  apply Finmap.ext_lookup
  intro x
  by_cases hx : x = c
  · rw [hx, Finmap.lookup_erase, Finmap.lookup_erase]
  · rw [Finmap.lookup_erase_ne hx, Finmap.lookup_erase_ne hx, Finmap.lookup_insert_of_ne _ hx]

/-- A new record of the container. -/
theorem quiet_insert (k : Container) :
    Quiet 0 c s { s with containers := s.containers.insert c k } :=
  ⟨rfl, rfl, rfl, rfl, erase_insert c k _, .refl s⟩

theorem quiet_devices (devices : Finset String) : Quiet 0 c s { s with devices := devices } :=
  ⟨rfl, rfl, rfl, rfl, rfl, .refl s⟩

theorem quiet_storageHandler : Quiet 0 c s ((storageHandler o c).handle s).1 := by
  simp only [storageHandler]
  split
  · exact .refl c s
  split
  · exact .refl c s
  split
  · exact quiet_insert _
  · exact quiet_insert _

/-- The counter moved by at most `n`, and new devices were attached. -/
structure Plugged (n : ℕ) (new : List String) (s s' : Sandbox) : Prop where
  eq : s' = { s with idGenerator := s'.idGenerator, devices := s.devices ∪ new.toFinset }
  notMem : ∀ d ∈ new, d ∉ s.devices
  advances : Advances n s s'

theorem Plugged.quiet {new : List String} (h : Plugged n new s s') : Quiet n c s s' := by
  have heq := h.eq
  exact ⟨by rw [heq], by rw [heq], by rw [heq], by rw [heq], by rw [heq], h.advances⟩

theorem Plugged.trans {new new' : List String} (h : Plugged n new s s')
    (h' : Plugged k new' s' s'') : Plugged (n + k) (new ++ new') s s'' where
  eq := by
    have heq := h.eq
    have heq' := h'.eq
    rw [heq] at heq'
    rw [heq']
    simp [Finset.union_assoc]
  notMem := by
    intro d hd
    rcases List.mem_append.mp hd with hd | hd
    · exact h.notMem d hd
    · have := h'.notMem d hd
      rw [h.eq] at this
      exact fun hmem => this (Finset.mem_union_left _ hmem)
  advances := h.advances.trans h'.advances

theorem attachPipe_none {i : ℕ} {path : String} {ioDevices : List String}
    (h : attachPipe o i path ioDevices s = (s', none)) : Plugged 1 [] s s' := by
  unfold attachPipe at h
  split at h
  · dsimp only at h
    split at h
    · cases h
      exact ⟨by simp [Sandbox.incrementId], by simp, advances_incrementId s⟩
    · cases h
  · cases h

theorem attachPipe_some {i : ℕ} {path : String} {ioDevices ioDevices' : List String} {name : String}
    (h : attachPipe o i path ioDevices s = (s', some (ioDevices', name))) :
    ∃ new, ioDevices' = ioDevices ++ new ∧ (new = [] ↔ isPipe path = false) ∧
      Plugged 1 new s s' := by
  unfold attachPipe at h
  split at h
  · rename_i hpipe
    dsimp only at h
    split at h
    · cases h
    · rename_i s₁ u hattach
      obtain ⟨hnew, rfl⟩ := hotAttach_eq_some hattach
      cases h
      refine ⟨_, rfl, by simp [hpipe], ?_, ?_, ?_⟩
      · simp [Sandbox.incrementId]
      · intro d hd
        rw [List.mem_singleton.mp hd]
        exact hnew
      · exact advances_incrementId s
  · rename_i hpipe
    cases h
    exact ⟨[], by simp, by simpa using hpipe, by simp, by simp,
      (Advances.refl s).mono (by omega)⟩

/-- The paths of the pipes in the order they are attached in. -/
def Io.paths (io : Io) : List String := [io.stdin, io.stdout, io.stderr]

/-- The pipes are attached one by one, up to the first that fails, and then recorded. -/
theorem ioHandler_cases {io : Io} {e : Option AppendError}
    (h : (ioHandler o c io).handle s = (s', e)) :
    ∃ new s₁, Plugged 3 new s s₁ ∧
      ((∃ i, e = some (.pipe i) ∧ s' = s₁ ∧ (new = [] ↔ (io.paths.take i).any isPipe = false)) ∨
        ((new = [] ↔ io.paths.any isPipe = false) ∧
          ∃ io', recordPipes o c io' new s₁ = (s', e))) := by
  simp only [ioHandler] at h
  split at h
  · rename_i h₀
    cases h
    have hp := attachPipe_none h₀
    exact ⟨[], s', ⟨hp.eq, hp.notMem, hp.advances.mono (by omega)⟩, .inl ⟨0, rfl, rfl, by simp⟩⟩
  rename_i s₁ ds₁ stdin h₀
  obtain ⟨new₁, hds₁, hnew₁, hp₁⟩ := attachPipe_some h₀
  split at h
  · rename_i h₁
    cases h
    have hp := hp₁.trans (attachPipe_none h₁)
    rw [List.append_nil] at hp
    exact ⟨new₁, s', ⟨hp.eq, hp.notMem, hp.advances.mono (by omega)⟩,
      .inl ⟨1, rfl, rfl, by simpa [Io.paths] using hnew₁⟩⟩
  rename_i s₂ ds₂ stdout h₁
  obtain ⟨new₂, hds₂, hnew₂, hp₂⟩ := attachPipe_some h₁
  split at h
  · rename_i h₂
    cases h
    have hp := (hp₁.trans hp₂).trans (attachPipe_none h₂)
    rw [List.append_nil] at hp
    exact ⟨new₁ ++ new₂, s', hp, .inl ⟨2, rfl, rfl, by simp [Io.paths, hnew₁, hnew₂]⟩⟩
  rename_i s₃ ds₃ stderr h₂
  obtain ⟨new₃, hds₃, hnew₃, hp₃⟩ := attachPipe_some h₂
  rw [hds₃, hds₂, hds₁] at h
  refine ⟨new₁ ++ new₂ ++ new₃, s₃, (hp₁.trans hp₂).trans hp₃, .inr ⟨?_, _, h⟩⟩
  simp [Io.paths, hnew₁, hnew₂, hnew₃]

theorem quiet_recordPipes (io : Io) (ioDevices : List String) :
    Quiet 0 c s (recordPipes o c io ioDevices s).1 := by
  unfold recordPipes
  split
  · exact .refl c s
  split
  · exact quiet_insert _
  · exact quiet_insert _

theorem quiet_ioHandler (io : Io) : Quiet 3 c s ((ioHandler o c io).handle s).1 := by
  rcases h : (ioHandler o c io).handle s with ⟨s', e⟩
  obtain ⟨new, s₁, hp, ⟨i, -, rfl, -⟩ | ⟨-, io', hrec⟩⟩ := ioHandler_cases h
  · exact hp.quiet
  · have hq := @quiet_recordPipes o c s₁ io' new
    rw [hrec] at hq
    exact hp.quiet.trans hq

theorem detachDevices_cases {ids : List String} {ok : Bool} (h : detachDevices d ids s = (s', ok)) :
    ∃ devices, s' = { s with devices := devices } := by
  induction ids generalizing s with
  | nil =>
    cases h
    exact ⟨_, rfl⟩
  | cons id ids ih =>
    rw [detachDevices] at h
    split at h
    · cases h
      exact ⟨_, rfl⟩
    · obtain ⟨devices, rfl⟩ := ih h
      exact ⟨devices, rfl⟩

theorem quiet_ioHandler_rollback (io : Io) : Quiet 0 c s ((ioHandler o c io).rollback s) := by
  simp only [ioHandler]
  split
  · exact .refl c s
  rename_i k _
  rcases hd : detachDevices o.detach k.ioDevices s with ⟨s', _ | _⟩ <;>
    obtain ⟨devices, rfl⟩ := detachDevices_cases hd
  · exact quiet_devices _
  · exact (quiet_devices devices).trans (quiet_insert _)

/-- The configuration is a file. -/
theorem specHandler_fst : ((specHandler o c).handle s).1 = s := by
  simp only [specHandler]
  repeat' split
  all_goals rfl

/-! ## What appending a container comes to -/

/-- Storages are attached for mounts, one after another. -/
inductive AttachRun (c : String) : List MountCall → Sandbox → Sandbox → Prop where
  | nil (s : Sandbox) : AttachRun c [] s s
  | cons {call calls s s₁ s₂}
      (h : Attach c call.mount call.isRootfsMount s s₁ none) (hrest : AttachRun c calls s₁ s₂) :
      AttachRun c (call :: calls) s s₂

def releaseAll (o : DetachOutcomes) (c : String) : List MountCall → Sandbox → Sandbox
  | [], s => s
  | call :: calls, s => releaseAll o c calls (deferenceStorage o c call.mount s).1

/-- The container is forgotten. -/
def Sandbox.forget (c : String) (s : Sandbox) : Sandbox :=
  { s with containers := s.containers.erase c }

def AppendError.afterMounts : AppendError → Bool
  | .bundle => false
  | .mount _ _ => false
  | _ => true

def leaksPipes (io : Option Io) (e : AppendError) : Bool :=
  match io, e with
  | some io, .pipe i => (io.paths.take i).any isPipe
  | some io, .ioFile => io.paths.any isPipe
  | _, _ => false

/-- The devices that a failure after the mounts leaves behind, if all calls that undo an
attachment succeed. -/
def PipesLeft (o : DetachOutcomes) (io : Option Io) (e : AppendError) (s s' : Sandbox) : Prop :=
  o.Succeed → ∃ new : List String, s'.devices = s.devices ∪ new.toFinset ∧
    (∀ d ∈ new, d ∉ s.devices) ∧ (new = [] ↔ leaksPipes io e = false)

theorem attach_containers {m : Mount} {isRootfsMount : Bool} {ae : Option AttachError}
    (h : Attach c m isRootfsMount s s' ae) : s'.containers = s.containers := by
  cases h with
  | adopted orphan g hcand hguest h => rw [h]
  | refused orphan g hcand hguest h => rw [h]
  | reused x hx hfree h => rw [h]
  | made e hnone h => exact h.frame.1

variable {io : Io} {k : Container}

theorem attachRun_containers (h : AttachRun c calls s s') : s'.containers = s.containers := by
  induction h with
  | nil => rfl
  | cons h _ ih => rw [ih, attach_containers h]

theorem mountHandler_ok (h : (mountHandler o c call).handle s = (s', none)) :
    Attach c call.mount call.isRootfsMount s s' none := by
  have hcases := @attachStorage_cases call.host c call.mount call.isRootfsMount s
  simp only [mountHandler] at h
  split at h
  · rename_i hattach
    cases h
    rwa [hattach] at hcases
  · cases h

theorem mountHandler_error (h : (mountHandler o c call).handle s = (s', some e)) :
    ∃ ae, e = .mount call.index ae ∧ Attach c call.mount call.isRootfsMount s s' (some ae) := by
  have hcases := @attachStorage_cases call.host c call.mount call.isRootfsMount s
  simp only [mountHandler] at h
  split at h
  · cases h
  · rename_i ae hattach
    cases h
    rw [hattach] at hcases
    exact ⟨ae, rfl, hcases⟩

theorem attachRun_of_forward (h : forward (calls.map (mountHandler o c)) s = some s') :
    AttachRun c calls s s' := by
  induction calls generalizing s with
  | nil =>
    cases h
    exact .nil _
  | cons call calls ih =>
    obtain ⟨s₁, hcall, hrest⟩ := forward_cons.mp h
    exact .cons (mountHandler_ok hcall) (ih hrest)

theorem rollback_mountHandlers :
    rollback (calls.map (mountHandler o c)) s = releaseAll o.detach c calls s := by
  induction calls generalizing s with
  | nil => rfl
  | cons call calls ih => exact ih

theorem lookup_withContainer :
    (s.withContainer c option).containers.lookup c =
      some ⟨option.rootfs, option.spec, option.io, [], [], []⟩ :=
  Finmap.lookup_insert _

theorem metadataAddHandler_ok (h : (metadataAddHandler o c option).handle s = (s', none)) :
    s' = s.withContainer c option := by
  simp only [metadataAddHandler] at h
  split at h
  · cases h
  · cases h
    rfl

theorem forward_mounts (h : forward (metadataAddHandler o c option :: namespaceHandler c ::
      calls.map (mountHandler o c)) s = some s') :
    AttachRun c calls (s.withContainer c option) s' := by
  obtain ⟨s₁, hmeta, h⟩ := forward_cons.mp h
  obtain ⟨s₂, hns, h⟩ := forward_cons.mp h
  have hs₂ : s₂ = s₁ := by
    simp only [namespaceHandler] at hns
    split at hns
    · cases hns
    · cases hns
      rfl
  rw [hs₂, metadataAddHandler_ok hmeta] at h
  exact attachRun_of_forward h

theorem storageHandler_ok (h : (storageHandler o c).handle s = (s', none)) :
    ∃ k roots k', s.containers.lookup c = some k ∧ rootStorages s.storages k.rootfs = some roots ∧
      s' = { s with containers := s.containers.insert c k' } ∧
      k'.sources = (rewriteContainer s.storages k roots).sources ∧
      k'.roots = (rewriteContainer s.storages k roots).roots := by
  simp only [storageHandler] at h
  split at h
  · cases h
  rename_i k hk
  split at h
  · cases h
  rename_i roots hroots
  split at h
  · cases h
  cases h
  exact ⟨k, roots, _, hk, hroots, rfl, rfl, rfl⟩

theorem recordPipes_ok {ioDevices : List String} (hk : s.containers.lookup c = some k)
    (h : recordPipes o c io ioDevices s = (s', none)) :
    s' = { s with containers :=
      s.containers.insert c { k with io := some io, ioDevices := ioDevices } } := by
  simp only [recordPipes, hk] at h
  split at h
  · cases h
  · cases h
    rfl

/-- The pipes of the container are recorded. -/
theorem ioHandler_ok (hk : s.containers.lookup c = some k)
    (h : (ioHandler o c io).handle s = (s', none)) :
    ∃ k' new s₁, Plugged 3 new s s₁ ∧
      s' = { s₁ with containers := s₁.containers.insert c k' } ∧ k'.ioDevices = new ∧
      k'.sources = k.sources ∧ k'.roots = k.roots := by
  obtain ⟨new, s₁, hp, ⟨i, herr, -⟩ | ⟨-, io', hrec⟩⟩ := ioHandler_cases h
  · cases herr
  · have hk₁ : s₁.containers.lookup c = some k := by
      rw [hp.eq]
      exact hk
    exact ⟨_, new, s₁, hp, recordPipes_ok hk₁ hrec, rfl, rfl, rfl⟩

/-- After the mounts the spec was rewritten to the storages that are there then. -/
theorem forward_tail (h : forward (tailHandlers o c option) s = some s') :
    ∃ k roots k', s.containers.lookup c = some k ∧ rootStorages s.storages k.rootfs = some roots ∧
      Quiet 3 c s s' ∧ s'.containers.lookup c = some k' ∧
      k'.sources = (rewriteContainer s.storages k roots).sources ∧
      k'.roots = (rewriteContainer s.storages k roots).roots := by
  obtain ⟨s₁, hstorage, h⟩ := forward_cons.mp h
  obtain ⟨s₂, hio, h⟩ := forward_append.mp h
  obtain ⟨s₃, hspec, h⟩ := forward_cons.mp h
  cases h
  have hs' : s' = s₂ := by
    have := @specHandler_fst o c s₂
    rwa [hspec] at this
  rw [hs']
  obtain ⟨k, roots, k₁, hk, hroots, rfl, hsources, hkroots⟩ := storageHandler_ok hstorage
  have hq : Quiet 0 c s { s with containers := s.containers.insert c k₁ } := quiet_insert k₁
  rcases hopt : option.io with _ | io <;> rw [hopt] at hio
  · cases hio
    exact ⟨k, roots, k₁, hk, hroots, hq.mono (by omega), Finmap.lookup_insert _, hsources, hkroots⟩
  · obtain ⟨s₄, hio, h₄⟩ := forward_cons.mp hio
    cases h₄
    obtain ⟨k₂, new, s₅, hp, rfl, -, hsources', hkroots'⟩ :=
      ioHandler_ok (Finmap.lookup_insert _) hio
    refine ⟨k, roots, k₂, hk, hroots, hq.trans (hp.quiet.trans (quiet_insert k₂)),
      Finmap.lookup_insert _, ?_, ?_⟩
    · rw [hsources', hsources]
    · rw [hkroots', hkroots]

/-- A container was appended: a storage was attached for each of its mounts, and its spec was
rewritten to the storages that are there then. -/
theorem append_ok (h : run (appendHandlers o c option) s = (s', none)) :
    ∃ s₁ roots k, AttachRun c (option.calls o) (s.withContainer c option) s₁ ∧
      rootStorages s₁.storages option.rootfs = some roots ∧ Quiet 3 c s₁ s' ∧
      s'.containers.lookup c = some k ∧
      k.sources = ((option.spec.map Spec.mounts).getD []).filterMap
        (fun m => (sourceStorage s₁.storages m).map fun x : Storage => x.id) ∧
      k.roots = roots.map fun r => (r.1, r.2.id) := by
  rw [run_ok_iff, appendHandlers, ← List.cons_append, ← List.cons_append] at h
  obtain ⟨s₁, hmounts, htail⟩ := forward_append.mp h
  have hrun := forward_mounts hmounts
  obtain ⟨k, roots, k', hk, hroots, hq, hk', hsources, hkroots⟩ := forward_tail htail
  rw [attachRun_containers hrun, lookup_withContainer] at hk
  cases hk
  exact ⟨s₁, roots, k', hrun, hroots, hq, hk', hsources, hkroots⟩

theorem detachDevices_eq (hd : d.Succeed) (ids : List String) :
    detachDevices d ids s = ({ s with devices := s.devices \ ids.toFinset }, true) := by
  induction ids generalizing s with
  | nil => simp [detachDevices]
  | cons id ids ih =>
    simp only [detachDevices, hd.1, Bool.not_true, Bool.false_eq_true, if_false, ih,
      List.toFinset_cons, Prod.mk.injEq, Sandbox.mk.injEq, true_and, and_true]
    rw [← Finset.sdiff_singleton_eq_erase, sdiff_sdiff_left]
    rfl

/-- The pipes of a container whose configuration failed are detached again. -/
theorem ioHandler_rollback_devices (hd : o.detach.Succeed) (hk : s.containers.lookup c = some k) :
    ((ioHandler o c io).rollback s).devices = s.devices \ k.ioDevices.toFinset := by
  simp only [ioHandler, hk, detachDevices_eq hd]

theorem storageHandler_error (h : (storageHandler o c).handle s = (s', some e)) :
    s'.devices = s.devices ∧ e.afterMounts = true ∧ ∀ io, leaksPipes io e = false := by
  simp only [storageHandler] at h
  split at h
  · cases h
    exact ⟨rfl, rfl, fun io => by cases io <;> rfl⟩
  split at h
  · cases h
    exact ⟨rfl, rfl, fun io => by cases io <;> rfl⟩
  split at h
  · cases h
    exact ⟨rfl, rfl, fun io => by cases io <;> rfl⟩
  · cases h

theorem specHandler_error (h : (specHandler o c).handle s = (s', some e)) :
    e.afterMounts = true ∧ ∀ io, leaksPipes io e = false := by
  simp only [specHandler] at h
  repeat' split at h
  all_goals cases h
  all_goals exact ⟨rfl, fun io => by cases io <;> rfl⟩

theorem pipesLeft_of_devices {io : Option Io} (hs : s'.devices = s.devices)
    (he : leaksPipes io e = false) : PipesLeft d io e s s' :=
  fun _ => ⟨[], by simp [hs], by simp, by simp [he]⟩

/-- The pipes up to the one that failed are left. -/
theorem ioHandler_error (hk : s.containers.lookup c = some k)
    (h : (ioHandler o c io).handle s = (s', some e)) :
    e.afterMounts = true ∧ PipesLeft o.detach (some io) e s s' := by
  obtain ⟨new, s₁, hp, ⟨i, herr, rfl, hnew⟩ | ⟨hnew, io', hrec⟩⟩ := ioHandler_cases h
  · cases herr
    exact ⟨rfl, fun _ => ⟨new, by rw [hp.eq], hp.notMem, hnew⟩⟩
  · have hk₁ : s₁.containers.lookup c = some k := by
      rw [hp.eq]
      exact hk
    simp only [recordPipes, hk₁] at hrec
    split at hrec
    · cases hrec
      refine ⟨rfl, fun _ => ⟨new, ?_, hp.notMem, hnew⟩⟩
      show s₁.devices = _
      rw [hp.eq]
    · cases hrec

theorem pipesLeft_ioHandler_rollback {s₁ : Sandbox} (hk : s.containers.lookup c = some k)
    (h : (ioHandler o c io).handle s = (s₁, none)) (he : leaksPipes (some io) e = false) :
    PipesLeft o.detach (some io) e s ((ioHandler o c io).rollback s₁) := by
  intro hd
  obtain ⟨k', new, s₂, hp, rfl, hdevices, -, -⟩ := ioHandler_ok hk h
  refine ⟨[], ?_, by simp, by simp [he]⟩
  rw [ioHandler_rollback_devices hd (Finmap.lookup_insert _), hdevices]
  show s₂.devices \ new.toFinset = s.devices ∪ [].toFinset
  have hdisj : Disjoint s.devices new.toFinset := by
    rw [Finset.disjoint_right]
    intro d hd
    exact hp.notMem d (List.mem_toFinset.mp hd)
  rw [hp.eq, Finset.union_sdiff_cancel_right hdisj, List.toFinset_nil, Finset.union_empty]

/-- What a failure after the mounts leaves behind, before the mounts are released. -/
theorem tail_error {pre post : List (Handler Sandbox AppendError)} {x : Handler Sandbox AppendError}
    {s₁ s₂ : Sandbox} (htail : tailHandlers o c option = pre ++ x :: post)
    (hpre : forward pre s = some s₁) (hx : x.handle s₁ = (s₂, some e)) :
    e.afterMounts = true ∧ Quiet 3 c s (rollback pre.reverse s₂) ∧
      PipesLeft o.detach option.io e s (rollback pre.reverse s₂) := by
  unfold tailHandlers at htail
  rcases pre with _ | ⟨y, pre⟩
  · -- the storages of the spec
    cases hpre
    cases htail
    obtain ⟨hdevices, hlate, hleaks⟩ := storageHandler_error hx
    have hq := @quiet_storageHandler o c s
    rw [hx] at hq
    exact ⟨hlate, hq.mono (by omega), pipesLeft_of_devices hdevices (hleaks _)⟩
  rw [List.cons_append, List.cons_append, List.cons.injEq] at htail
  obtain ⟨rfl, htail⟩ := htail
  obtain ⟨s₃, hstorage, hpre⟩ := forward_cons.mp hpre
  obtain ⟨k, roots, k₁, -, -, rfl, -, -⟩ := storageHandler_ok hstorage
  have hq : Quiet 0 c s { s with containers := s.containers.insert c k₁ } := quiet_insert k₁
  have hk₁ : (s.containers.insert c k₁).lookup c = some k₁ := Finmap.lookup_insert _
  rw [List.reverse_cons, rollback_append]
  show e.afterMounts = true ∧ Quiet 3 c s (rollback pre.reverse s₂) ∧
    PipesLeft o.detach option.io e s (rollback pre.reverse s₂)
  rcases hopt : option.io with _ | io <;> rw [hopt] at htail
  · -- the configuration, without pipes
    rcases pre with _ | ⟨z, pre⟩
    · cases hpre
      cases htail
      have hs₂ := @specHandler_fst o c { s with containers := s.containers.insert c k₁ }
      rw [hx] at hs₂
      cases hs₂
      obtain ⟨hlate, hleaks⟩ := specHandler_error hx
      exact ⟨hlate, hq.mono (by omega), pipesLeft_of_devices rfl (hleaks _)⟩
    · simp at htail
  rcases pre with _ | ⟨z, pre⟩
  · -- the pipes
    cases hpre
    cases htail
    have hq₂ := @quiet_ioHandler o c { s with containers := s.containers.insert c k₁ } io
    rw [hx] at hq₂
    obtain ⟨hlate, hleft⟩ := ioHandler_error hk₁ hx
    exact ⟨hlate, hq.trans hq₂, hleft⟩
  rw [Option.map_some, Option.toList_some, List.cons_append, List.nil_append, List.cons_append,
    List.cons.injEq] at htail
  obtain ⟨rfl, htail⟩ := htail
  rcases pre with _ | ⟨w, pre⟩
  · -- the configuration, after the pipes
    cases htail
    obtain ⟨s₄, hio, hpre⟩ := forward_cons.mp hpre
    cases hpre
    have hs₂ := @specHandler_fst o c s₁
    rw [hx] at hs₂
    cases hs₂
    have hq₂ := @quiet_ioHandler o c { s with containers := s.containers.insert c k₁ } io
    rw [hio] at hq₂
    obtain ⟨hlate, hleaks⟩ := specHandler_error hx
    have hleft := pipesLeft_ioHandler_rollback hk₁ hio (hleaks _)
    exact ⟨hlate, hq.trans (hq₂.trans (quiet_ioHandler_rollback io)), hleft⟩
  · simp at htail

/-- Rolling back the first two handlers and the mounts. -/
theorem rollback_mounts :
    rollback (metadataAddHandler o c option :: namespaceHandler c ::
      calls.map (mountHandler o c)).reverse s =
        (releaseAll o.detach c calls.reverse s).forget c := by
  rw [List.reverse_cons, List.reverse_cons, rollback_append, rollback_append,
    ← List.map_reverse, rollback_mountHandlers]
  rfl

/-- Appending a container failed: at the bundle, at one of the mounts, or after them. The mounts
before are released in reverse, and the container is forgotten. -/
theorem append_error (h : run (appendHandlers o c option) s = (s', some e)) :
    (e = .bundle ∧ s' = s.forget c) ∨
      ∃ done rest s₁ s₂, option.calls o = done ++ rest ∧
        AttachRun c done (s.withContainer c option) s₁ ∧
        s' = (releaseAll o.detach c done.reverse s₂).forget c ∧
        ((∃ call ae, rest.head? = some call ∧ e = .mount call.index ae ∧
            Attach c call.mount call.isRootfsMount s₁ s₂ (some ae)) ∨
          (rest = [] ∧ e.afterMounts = true ∧ Quiet 3 c s₁ s₂ ∧
            PipesLeft o.detach option.io e s₁ s₂)) := by
  obtain ⟨pre, x, post, s₁, s₂, hhs, hpre, hx, rfl⟩ := run_error h
  unfold appendHandlers at hhs
  rcases pre with _ | ⟨y, pre⟩
  · -- the bundle: this handler is rolled back although it failed
    cases hhs
    cases hpre
    simp only [metadataAddHandler] at hx
    split at hx
    · cases hx
      exact .inl ⟨rfl, rfl⟩
    · cases hx
  rw [List.cons_append, List.cons.injEq] at hhs
  obtain ⟨rfl, hhs⟩ := hhs
  rcases pre with _ | ⟨z, pre⟩
  · -- the namespaces: the container was recorded
    obtain ⟨rfl, -⟩ := hhs
    obtain ⟨s₃, hmeta, h₃⟩ := forward_cons.mp hpre
    cases h₃
    rw [metadataAddHandler_ok hmeta] at hx
    simp [namespaceHandler, lookup_withContainer] at hx
  rw [List.cons_append, List.cons.injEq] at hhs
  obtain ⟨rfl, hhs⟩ := hhs
  refine .inr ?_
  rw [finished_of_ne_nil (by simp)]
  rcases List.append_eq_append_iff.mp hhs with ⟨tail, rfl, htail⟩ | ⟨rest, hmounts, hrest⟩
  · -- after the mounts
    rw [← List.cons_append, ← List.cons_append] at hpre ⊢
    obtain ⟨s₃, hfront, hback⟩ := forward_append.mp hpre
    obtain ⟨hlate, hq, hleft⟩ := tail_error htail hback hx
    refine ⟨option.calls o, [], s₃, rollback tail.reverse s₂, by simp,
      forward_mounts hfront, ?_, .inr ⟨rfl, hlate, hq, hleft⟩⟩
    rw [List.reverse_append, rollback_append, rollback_mounts]
  · rcases rest with _ | ⟨y, rest⟩
    · -- the first handler after the mounts
      rw [List.append_nil] at hmounts
      rw [← hmounts] at hpre ⊢
      obtain ⟨hlate, hq, hleft⟩ := @tail_error o c option s₁ e [] post x s₁ s₂ hrest.symm rfl hx
      exact ⟨option.calls o, [], s₁, s₂, by simp, forward_mounts hpre, rollback_mounts,
        .inr ⟨rfl, hlate, hq, hleft⟩⟩
    · -- a mount
      obtain ⟨rfl, -⟩ := hrest
      obtain ⟨done, rest', hcalls, rfl, hrest'⟩ := List.map_eq_append_iff.mp hmounts
      obtain ⟨call, rest'', rfl, rfl, -⟩ := List.map_eq_cons_iff.mp hrest'
      obtain ⟨ae, he, hattach⟩ := mountHandler_error hx
      exact ⟨done, call :: rest'', s₁, s₂, hcalls, forward_mounts hpre, rollback_mounts,
        .inl ⟨call, ae, rfl, he, hattach⟩⟩

/-! ## Appending as a sequence of steps -/

theorem length_calls (o : AppendOutcomes) (option : ContainerOption) :
    (option.calls o).length = option.mounts.length := by
  simp [ContainerOption.calls]

theorem mount_mem_mounts :
    ∀ call ∈ option.calls o, (call.mount, call.isRootfsMount) ∈ option.mounts := by
  intro call hcall
  obtain ⟨i, hi, rfl⟩ := List.mem_mapIdx.mp hcall
  exact List.getElem_mem hi

theorem quiet_forget (c : String) (s : Sandbox) : Quiet 0 c s (s.forget c) := by
  refine ⟨rfl, rfl, rfl, rfl, ?_, .refl s⟩
  apply Finmap.ext_lookup
  intro x
  by_cases hx : x = c
  · rw [hx, Finmap.lookup_erase, Finmap.lookup_erase]
  · rw [Finmap.lookup_erase_ne hx, Sandbox.forget, Finmap.lookup_erase_ne hx]

section Steps

variable {R : ℕ → Sandbox → Sandbox → Prop}
  (trans : ∀ n k s s' s'', R n s s' → R k s' s'' → R (n + k) s s'')
  (mono : ∀ n k s s', n ≤ k → R n s s' → R k s s')
  (attach : ∀ m r s s' ae, (m, r) ∈ option.mounts → Attach c m r s s' ae → R 2 s s')
  (quiet : ∀ n s s', Quiet n c s s' → R n s s')
  (release : ∀ m s, R 0 s (deferenceStorage o.detach c m s).1)

include trans mono attach quiet in
theorem attachRun_steps (h : AttachRun c calls s s')
    (hcalls : ∀ call ∈ calls, (call.mount, call.isRootfsMount) ∈ option.mounts) :
    R (2 * calls.length) s s' := by
  induction h with
  | nil s => exact quiet 0 s s (.refl c s)
  | cons h _ ih =>
    have hR := ih fun call hcall => hcalls call (List.mem_cons_of_mem _ hcall)
    have hR₁ := attach _ _ _ _ _ (hcalls _ List.mem_cons_self) h
    refine mono _ _ _ _ ?_ (trans _ _ _ _ _ hR₁ hR)
    rw [List.length_cons]
    omega

include trans quiet release in
theorem releaseAll_steps : R 0 s (releaseAll o.detach c calls s) := by
  induction calls generalizing s with
  | nil => exact quiet 0 s s (.refl c s)
  | cons call calls ih => exact trans 0 0 _ _ _ (release call.mount s) ih

include trans mono attach quiet release in
/-- Appending a container is a sequence of attachments, releases and steps that leave the storages
alone. The number counts the ids that they take. -/
theorem append_steps :
    R (2 * option.mounts.length + 3) s (appendContainer o c option s).1 := by
  have hlen := length_calls o option
  have hmem := @mount_mem_mounts o option
  have hwith : R 0 s (s.withContainer c option) := quiet 0 _ _ (quiet_insert _)
  unfold appendContainer
  rcases h : run (appendHandlers o c option) s with ⟨s', _ | e⟩
  · obtain ⟨s₁, roots, k, hattach, -, hq, -⟩ := append_ok h
    have hR := attachRun_steps trans mono attach quiet hattach hmem
    have hR' := trans _ _ _ _ _ (trans _ _ _ _ _ hwith hR) (quiet 3 _ _ hq)
    have hdone : R (2 * option.mounts.length + 3) s s' := mono _ _ _ _ (by omega) hR'
    dsimp only
    split <;> exact hdone
  · rcases append_error h with ⟨-, rfl⟩ | ⟨done, rest, s₁, s₂, hcalls, hattach, rfl, hend⟩
    · exact mono _ _ _ _ (by omega) (quiet 0 _ _ (quiet_forget c s))
    · have hdone : done.length + rest.length = (option.calls o).length := by simp [hcalls]
      have hR := attachRun_steps trans mono attach quiet hattach
        fun call hcall => hmem call (hcalls ▸ List.mem_append_left rest hcall)
      have hR₂ : R (2 * rest.length + 3) s₁ s₂ := by
        rcases hend with ⟨call, ae, hhead, -, hattach⟩ | ⟨-, -, hq, -⟩
        · have hcall := hmem call (hcalls ▸ List.mem_append_right done (List.mem_of_head? hhead))
          exact mono _ _ _ _ (by omega) (attach _ _ _ _ _ hcall hattach)
        · exact mono _ _ _ _ (by omega) (quiet 3 _ _ hq)
      have hback := @releaseAll_steps o c s₂ done.reverse R trans quiet release
      have hforget := trans _ _ _ _ _ hback (quiet 0 _ _ (quiet_forget c _))
      have hfailed := trans _ _ _ _ _ hwith (trans _ _ _ _ _ hR hR₂)
      exact mono _ _ _ _ (by omega) (trans _ _ _ _ _ hfailed hforget)

end Steps

/-- Removing a container drops its references. It stops there, or it goes on and forgets the
container. -/
theorem removeContainer_cases {o : RemoveOutcomes} {s₁ : Sandbox} {ok : Bool}
    (h : deferenceContainerStorages o.detach c s = (s₁, ok)) :
    ((ok && o.bundle) = false ∧ (removeContainer o c s).1 = s₁) ∨
      ((ok && o.bundle) = true ∧
        ∃ devices, (removeContainer o c s).1 = { s₁.forget c with devices := devices }) := by
  unfold removeContainer
  rw [h]
  rcases ok with _ | _
  · exact .inl ⟨rfl, rfl⟩
  · rcases hb : o.bundle with _ | _
    · exact .inl ⟨rfl, rfl⟩
    · refine .inr ⟨rfl, ?_⟩
      simp only [Bool.not_true, Bool.false_eq_true, if_false]
      split
      · rename_i hd
        exact detachDevices_cases hd
      · rename_i hd
        split <;> exact detachDevices_cases hd

end Kuasar.Storages

import Kuasar.Data.Delimited
import Kuasar.Sandbox.Containers
import Kuasar.Sandbox.RestoreRollback

/-!
# Sandbox.StorageIds — the ids of storages and of their devices

Storages and devices are numbered by the counter of their sandbox. As long as the storages there
are carry different numbers, none of them above the counter (`Numbered`), a new number is a new
id. Appending and removing containers keeps it so, unless the counter overflows.

A restore replaces the storages and the counter by those of the template, at different times. A
WarmFork restore that fails between the two leaves the storages of the template with a counter
that has not reached their numbers, and the sandbox is then started in another way.
-/

namespace Kuasar.Storages

open Sandbox Tla

/-! ## Numbered storages -/

theorem storageId_inj {n k : ℕ} : storageId n = storageId k ↔ n = k := by
  rw [storageId, storageId, String.append_right_inj, Delimited.toString_inj]

theorem blockId_inj {n k : ℕ} : blockId n = blockId k ↔ n = k := by
  rw [blockId, blockId, String.append_right_inj, Delimited.toString_inj]

theorem storageId_ne_blockId (n k : ℕ) : storageId n ≠ blockId k := by
  intro h
  have := congrArg String.toList h
  rw [storageId, blockId, String.toList_append, String.toList_append] at this
  exact absurd (congrArg List.head? this) (by simp)

/-- Storages with different ids and different devices, none numbered above `g`. -/
structure Numbered (g : ℕ) (xs : List Kuasar.Storage) : Prop where
  ids : (xs.map fun x => x.id).Nodup
  devices : (xs.filterMap fun x => x.deviceId).Nodup
  id_le : ∀ x ∈ xs, ∃ n ≤ g, x.id = storageId n
  device_le : ∀ x ∈ xs, ∀ d, x.deviceId = some d → ∃ n ≤ g, d = blockId n

namespace Numbered

variable {g g' : ℕ} {xs ys : List Kuasar.Storage} {x : Kuasar.Storage}

theorem nil (g : ℕ) : Numbered g [] := by
  constructor <;> simp

theorem mono (h : Numbered g xs) (hle : g ≤ g') : Numbered g' xs where
  ids := h.ids
  devices := h.devices
  id_le := by
    intro x hx
    obtain ⟨n, hn, hid⟩ := h.id_le x hx
    exact ⟨n, by omega, hid⟩
  device_le := by
    intro x hx d hd
    obtain ⟨n, hn, hid⟩ := h.device_le x hx d hd
    exact ⟨n, by omega, hid⟩

theorem sublist (h : Numbered g ys) (hsub : List.Sublist xs ys) : Numbered g xs where
  ids := h.ids.sublist (hsub.map _)
  devices := h.devices.sublist (hsub.filterMap _)
  id_le := fun x hx => h.id_le x (hsub.subset hx)
  device_le := fun x hx => h.device_le x (hsub.subset hx)

/-- A storage with new numbers. -/
theorem concat (h : Numbered g xs) (hle : g ≤ g') {n : ℕ} (hn : g < n) (hn' : n ≤ g')
    (hid : x.id = storageId n)
    (hdev : ∀ d, x.deviceId = some d → ∃ k, g < k ∧ k ≤ g' ∧ d = blockId k) :
    Numbered g' (xs ++ [x]) where
  ids := by
    apply FirstMatch.nodup_map_concat h.ids
    intro y hy heq
    obtain ⟨k, hk, hy⟩ := h.id_le y hy
    rw [hy, hid, storageId_inj] at heq
    omega
  devices := by
    rw [List.filterMap_append, List.nodup_append]
    refine ⟨h.devices, by rcases hd : x.deviceId with _ | d <;> simp [hd], ?_⟩
    intro a ha b hb hab
    obtain ⟨y, hy, hya⟩ := List.mem_filterMap.mp ha
    obtain ⟨k, hk, ha⟩ := h.device_le y hy a hya
    obtain ⟨z, hz, hzb⟩ := List.mem_filterMap.mp hb
    rw [List.mem_singleton.mp hz] at hzb
    obtain ⟨j, hj, hj', hb⟩ := hdev b hzb
    rw [ha, hb, blockId_inj] at hab
    omega
  id_le := by
    intro y hy
    rcases FirstMatch.mem_concat.mp hy with hy | rfl
    · exact (h.mono hle).id_le y hy
    · exact ⟨n, hn', hid⟩
  device_le := by
    intro y hy d hd
    rcases FirstMatch.mem_concat.mp hy with hy | rfl
    · exact (h.mono hle).device_le y hy d hd
    · obtain ⟨k, -, hk, hkd⟩ := hdev d hd
      exact ⟨k, hk, hkd⟩

/-- Only the ids count. -/
theorem congr (h : Numbered g xs)
    (heq : ys.map (fun y => (y.id, y.deviceId)) = xs.map fun x => (x.id, x.deviceId)) :
    Numbered g ys := by
  have hids : ys.map (fun y => y.id) = xs.map fun x => x.id := by
    simpa [Function.comp_def] using congrArg (List.map Prod.fst) heq
  have hdevices : ys.filterMap (fun y => y.deviceId) = xs.filterMap fun x => x.deviceId := by
    have := congrArg (List.filterMap Prod.snd) heq
    simpa [List.filterMap_map, Function.comp_def] using this
  have hmem : ∀ y ∈ ys, ∃ x ∈ xs, x.id = y.id ∧ x.deviceId = y.deviceId := by
    intro y hy
    have : (y.id, y.deviceId) ∈ xs.map fun x => (x.id, x.deviceId) :=
      heq ▸ List.mem_map.mpr ⟨y, hy, rfl⟩
    obtain ⟨x, hx, hxy⟩ := List.mem_map.mp this
    rw [Prod.mk.injEq] at hxy
    exact ⟨x, hx, hxy.1, hxy.2⟩
  refine ⟨hids ▸ h.ids, hdevices ▸ h.devices, ?_, ?_⟩
  · intro y hy
    obtain ⟨x, hx, hid, -⟩ := hmem y hy
    exact hid ▸ h.id_le x hx
  · intro y hy d hd
    obtain ⟨x, hx, -, hdev⟩ := hmem y hy
    exact h.device_le x hx d (hdev.trans hd)

end Numbered

/-- The storages of a sandbox as far as their ids go. -/
def Sandbox.thin (s : Sandbox) : List Kuasar.Storage := s.storages.map Storage.toStorage

/-- The storages of a sandbox are numbered up to its counter. -/
def Sandbox.Numbered (s : Sandbox) : Prop := Storages.Numbered s.idGenerator s.thin

theorem Sandbox.Numbered.ids_nodup {s : Sandbox} (h : s.Numbered) :
    (s.storages.map fun x : Storage => x.id).Nodup := by
  have := Storages.Numbered.ids h
  rwa [thin, List.map_map] at this

/-! ## Containers -/

section Containers

variable {c : String} {s s' : Sandbox}

/-- The ids of the storages do not change. -/
theorem Sandbox.Numbered.congr (h : s.Numbered) (hthin : s'.thin = s.thin)
    (hle : s.idGenerator ≤ s'.idGenerator) : s'.Numbered := by
  unfold Sandbox.Numbered
  rw [hthin]
  exact h.mono hle

theorem idGenerator_incrementId (h : s.idGenerator + 1 < 2 ^ 32) :
    s.incrementId.idGenerator = s.idGenerator + 1 :=
  Nat.mod_eq_of_lt h

variable {m : Mount} {d : DetachOutcomes}

theorem attach_advances {r : Bool} {ae : Option AttachError} (h : Attach c m r s s' ae) :
    Advances 2 s s' := by
  cases h with
  | adopted orphan g hcand hguest h | refused orphan g hcand hguest h | reused x hx hfree h =>
    rw [h]
    exact (Advances.refl s).mono (by omega)
  | made e hnone h =>
    have h₁ := advances_incrementId s
    have h₂ := advances_incrementId s.incrementId
    cases h with
    | none h =>
      rw [h]
      exact h₁.mono (by omega)
    | pushed h =>
      obtain ⟨x, -, ⟨-, rfl⟩ | ⟨-, -, rfl⟩⟩ := h
      · exact h₁.mono (by omega)
      · exact h₁.trans h₂
    | failed e he h =>
      rcases h with rfl | rfl
      · exact h₁.mono (by omega)
      · exact h₁.trans h₂
    | leaked hnew h =>
      rw [h]
      exact h₁.trans h₂

/-- A storage that is made takes its numbers from the counter. -/
theorem attach_numbered {r : Bool} {ae : Option AttachError} (h : Attach c m r s s' ae)
    (hroom : s.idGenerator + 2 < 2 ^ 32) (hn : s.Numbered) : s'.Numbered := by
  have hadv := attach_advances h hroom
  cases h with
  | adopted orphan g hcand hguest h | reused x hx hfree h =>
    apply hn.congr _ hadv.1
    rw [h]
    apply FirstMatch.map_updateFirst
    intro y
    rfl
  | refused orphan g hcand hguest h =>
    apply hn.congr _ hadv.1
    rw [h]
    rfl
  | made e hnone h =>
    have h₁ := @idGenerator_incrementId s (by omega)
    have h₂ := @idGenerator_incrementId s.incrementId (by omega)
    cases h with
    | none h | leaked hnew h =>
      apply hn.congr _ hadv.1
      rw [h]
      rfl
    | pushed h =>
      obtain ⟨x, hx, ⟨hd, rfl⟩ | ⟨hd, -, rfl⟩⟩ := h
      · have := Numbered.concat hn hadv.1 (by omega) (show s.incrementId.idGenerator ≤ _ by rfl)
          hx.id_eq (by simp [hd])
        simpa [Sandbox.Numbered, thin, push, incrementId] using this
      · have := Numbered.concat hn hadv.1 (by omega)
          (show s.incrementId.idGenerator ≤ s.incrementId.incrementId.idGenerator by omega)
          hx.id_eq (fun d hxd => ⟨s.incrementId.incrementId.idGenerator, by omega, le_rfl, by
            rw [hd] at hxd
            exact (Option.some.inj hxd).symm⟩)
        simpa [Sandbox.Numbered, thin, incrementId] using this
    | failed e he h =>
      apply hn.congr _ hadv.1
      rcases h with rfl | rfl <;> rfl

theorem quiet_numbered {n : ℕ} (h : Quiet n c s s') (hroom : s.idGenerator + n < 2 ^ 32)
    (hn : s.Numbered) : s'.Numbered := by
  apply hn.congr _ (h.advances hroom).1
  rw [thin, thin, h.storages]

theorem gcStorages_numbered (hn : s.Numbered) : (gcStorages d s).1.Numbered := by
  have hsub := @gcStorages_sublist d s
  have hg : (gcStorages d s).1.idGenerator = s.idGenerator := by rw [gcStorages_fst]
  unfold Sandbox.Numbered
  rw [hg]
  exact Storages.Numbered.sublist hn (hsub.map _)

theorem deferenceStorage_numbered (hn : s.Numbered) : (deferenceStorage d c m s).1.Numbered := by
  apply gcStorages_numbered
  refine hn.congr ?_ (Nat.le_refl s.idGenerator)
  apply FirstMatch.map_updateFirst
  intro y
  rfl

def Room (option : ContainerOption) (s : Sandbox) : Prop :=
  s.idGenerator + 2 * option.mounts.length + 3 < 2 ^ 32

theorem deferenceStorage_idGenerator :
    (deferenceStorage d c m s).1.idGenerator = s.idGenerator := by
  rw [deferenceStorage, gcStorages_fst]

/-- What attaching, releasing and the other steps keep, as long as the counter has room, appending
a container keeps. -/
theorem append_rel {R : Sandbox → Sandbox → Prop} {o : AppendOutcomes} {option : ContainerOption}
    (trans : ∀ s s' s'', R s s' → R s' s'' → R s s'')
    (attach : ∀ m r s s' ae, (m, r) ∈ option.mounts → s.idGenerator + 2 < 2 ^ 32 →
      Attach c m r s s' ae → R s s')
    (quiet : ∀ n s s', s.idGenerator + n < 2 ^ 32 → Quiet n c s s' → R s s')
    (release : ∀ m s, R s (deferenceStorage o.detach c m s).1) (hroom : Room option s) :
    R s (appendContainer o c option s).1 := by
  refine (append_steps (R := fun n s s' => s.idGenerator + n < 2 ^ 32 →
    R s s' ∧ s'.idGenerator ≤ s.idGenerator + n) ?_ ?_ ?_ ?_ ?_ hroom).1
  · intro n k s s' s'' h h' hroom
    obtain ⟨hR, hle⟩ := h (by omega)
    obtain ⟨hR', hle'⟩ := h' (by omega)
    exact ⟨trans s s' s'' hR hR', by omega⟩
  · intro n k s s' hle h hroom
    obtain ⟨hR, hle'⟩ := h (by omega)
    exact ⟨hR, by omega⟩
  · intro m r s s' ae hm h hroom
    exact ⟨attach m r s s' ae hm hroom h, (attach_advances h hroom).2⟩
  · intro n s s' h hroom
    exact ⟨quiet n s s' hroom h, (h.advances hroom).2⟩
  · intro m s hroom
    exact ⟨release m s, by rw [deferenceStorage_idGenerator]; omega⟩

theorem appendContainer_numbered {o : AppendOutcomes} {option : ContainerOption}
    (hroom : Room option s) (hn : s.Numbered) : (appendContainer o c option s).1.Numbered := by
  refine append_rel (R := fun s s' => s.Numbered → s'.Numbered) ?_ ?_ ?_ ?_ hroom hn
  · intro s s' s'' h h' hn
    exact h' (h hn)
  · intro m r s s' ae _ hroom h hn
    exact attach_numbered h hroom hn
  · intro n s s' hroom h hn
    exact quiet_numbered h hroom hn
  · intro m s hn
    exact deferenceStorage_numbered hn

theorem removeContainer_numbered {o : RemoveOutcomes} (hn : s.Numbered) :
    (removeContainer o c s).1.Numbered := by
  rcases h : deferenceContainerStorages o.detach c s with ⟨s₁, ok⟩
  have hn₁ : s₁.Numbered := by
    have : (deferenceContainerStorages o.detach c s).1.Numbered := by
      apply gcStorages_numbered
      refine hn.congr ?_ (Nat.le_refl s.idGenerator)
      simp [thin, Function.comp_def, Storage.defer]
    rwa [h] at this
  rcases removeContainer_cases h with ⟨-, heq⟩ | ⟨-, devices, heq⟩
  · rwa [heq]
  · rw [heq]
    exact hn₁

/-- A step of a sandbox keeps its storages numbered, if the counter has room. -/
theorem step_numbered {l : Label} (h : next l s s')
    (hroom : ∀ c option o, l = .append c option o → Room option s) (hn : s.Numbered) :
    s'.Numbered := by
  cases l with
  | append c option o =>
    cases h
    exact appendContainer_numbered (hroom c option o rfl) hn
  | remove c o =>
    cases h
    exact removeContainer_numbered hn
  | create c alive pid =>
    cases h
    exact hn

end Containers

/-! ## Starts and restores -/

section Service

variable (o : Restore.Outcomes) (src : Restore.SnapshotRestoreParams)

def finishService (sb : Restore.Sandbox) : Restore.Sandbox × Bool :=
  if !o.addToCgroup || !o.dump then
    let sb := (sb.clearTemplateRestoreState.stop o).1
    (if src.snapshotType = .warmFork then sb.destroyNetwork else sb, false)
  else (sb, true)

/-- `restore_sandbox_warm_fork` and `restore_sandbox_continuation` of the service, which set the
counter before the restore. -/
def serviceRestore (m : Restore.Machine) : Restore.Machine × Bool :=
  if !o.sandboxFound || m.sandbox.status ≠ .created then (m, false)
  else
    match Restore.prepareStep o src m.sandbox with
    | (sb, some _) => ({ m with sandbox := sb.destroyNetwork }, false)
    | (sb, none) =>
      let sb := { sb with
        restore := { sb.restore with
          templateId := src.templateId
          templateSnapshotType := some src.snapshotType
          leaseMode := some src.leaseMode
          reflinkSupported := some src.reflinkSupported }
        idGenerator := src.idGenerator }
      match Restore.tryRestore o src { m with sandbox := sb } with
      | (m, some _) =>
        let sb := m.sandbox.clearTemplateRestoreState
        ({ m with
          sandbox := if src.snapshotType = .warmFork then sb.destroyNetwork else sb }, false)
      | (m, none) =>
        match finishService o src m.sandbox with
        | (sb, ok) => ({ m with sandbox := sb }, ok)

end Service

/-- A sandbox and its last dump. -/
structure World where
  sandbox : Sandbox
  dumped : Option Sandbox := none

/-- The steps of a sandbox and its starts. A restore is one of the sandboxer or one of the
service; `client` says whether the guest was reached. -/
inductive Event where
  | cold (client : Bool)
  | restore (o : Restore.Outcomes) (src : Restore.SnapshotRestoreParams)
  | serviceRestore (o : Restore.Outcomes) (src : Restore.SnapshotRestoreParams)
  | container (l : Label)
  | dump
  | recover (client : Bool)

/-- One sandbox as a restore sees it, and as its containers do. -/
structure Projects (sb : Restore.Sandbox) (s : Sandbox) : Prop where
  storages : sb.storages = s.thin
  idGenerator : sb.idGenerator = s.idGenerator
  orphans : sb.restore.orphanContainerIds = s.orphanContainerIds
  leaseMode : sb.restore.leaseMode = s.leaseMode
  baseDir : sb.baseDir = s.baseDir
  virtioBlk : sb.virtioBlk = s.policy.virtioBlk
  client : sb.client.isSome = s.client
  containers : ∀ c, c ∈ sb.containers ↔ c ∈ s.containers

namespace World

/-- A restore, as a function of the sandbox and the files. Removing containers on its way out
drops storages and makes none. -/
def Restores (o : Restore.Outcomes) (f : Restore.Machine → Restore.Machine) : Tla.Action World :=
  fun w w' => (∀ xs, (o.removeContainers xs).Sublist xs) ∧ w'.dumped = w.dumped ∧
    ∃ m, Projects m.sandbox w.sandbox ∧ Projects (f m).sandbox w'.sandbox

/-- The steps of a sandbox and its starts. A cold start boots a VM without storages; a recovered
sandbox is the dumped one on the VM that still runs. -/
def next : Event → Tla.Action World
  | .cold client => fun w w' => w' = { w with
      sandbox := { w.sandbox with client := client, devices := ∅, guest := ⟨∅, ∅, []⟩ } }
  | .restore o src => Restores o fun m => (Restore.startFromSnapshot o src m).1
  | .serviceRestore o src => Restores o fun m => (Storages.serviceRestore o src m).1
  | .container l => fun w w' => Storages.next l w.sandbox w'.sandbox ∧ w'.dumped = w.dumped
  | .dump => fun w w' => w' = { w with dumped := some w.sandbox }
  | .recover client => fun w w' => ∃ s, w.dumped = some s ∧ w' = { w with
      sandbox := { s with
        client := client
        devices := w.sandbox.devices
        guest := w.sandbox.guest } }

/-- A sandbox that was created. -/
def Init (w : World) : Prop :=
  w.sandbox.storages = [] ∧ w.sandbox.idGenerator = 0 ∧ w.sandbox.containers = ∅ ∧
    w.sandbox.orphanContainerIds = [] ∧ w.dumped = none

/-- A WarmFork restore that has replaced the storages goes through. -/
def GoesThrough (o : Restore.Outcomes) (src : Restore.SnapshotRestoreParams) : Prop :=
  o.refreshIdentity = true ∧ src.warmForkTargets.isSome = true ∧ o.injectTask = true

/-- A restore replaces the storages by ones that are numbered up to the counter that goes with
them: that of the template, or that of the sandbox if the restore may fail before the counter is
replaced. A restore that keeps the storages brings a counter that has reached them. -/
def RestoreSteady (o : Restore.Outcomes) (src : Restore.SnapshotRestoreParams) (s : Sandbox) :
    Prop :=
  match src.snapshotType with
  | .environment => Numbered src.idGenerator s.thin
  | .continuation => Numbered src.idGenerator src.storages
  | .warmFork => Numbered src.idGenerator src.storages ∧
      (GoesThrough o src ∨ Numbered s.idGenerator src.storages)

/-- The service replaces the counter first: both the storages of the template and those of the
sandbox are numbered up to the counter of the template. -/
def ServiceSteady (src : Restore.SnapshotRestoreParams) (s : Sandbox) : Prop :=
  Numbered src.idGenerator src.storages ∧ Numbered src.idGenerator s.thin

/-- The counter has room for the ids of a new container, and keeps up with the storages of a
restore. -/
def Steady (e : Event) (w : World) : Prop :=
  match e with
  | .container (.append _ option _) => Room option w.sandbox
  | .restore o src => RestoreSteady o src w.sandbox
  | .serviceRestore _ src => ServiceSteady src w.sandbox
  | _ => True

section Restore

variable {o : Restore.Outcomes} {src : Restore.SnapshotRestoreParams}

/-- The storages of the template keep their ids. -/
theorem numbered_remap {g : ℕ} (h : Numbered g src.storages) (baseDir : String) :
    Numbered g (Restore.remapRestoredStorageArtifacts src baseDir) := by
  apply h.congr
  unfold Restore.remapRestoredStorageArtifacts
  rw [List.map_map]
  apply List.map_congr_left
  intro x _
  show ((if _ then _ else _ : Kuasar.Storage).id,
    (if _ then _ else _ : Kuasar.Storage).deviceId) = _
  split <;> rfl

variable {sb sb' : Restore.Sandbox} {e : Option Restore.RestoreStep} {m m' : Restore.Machine}
  {s : Sandbox}

/-- Nothing refuses a WarmFork restore that goes through, once its network is plugged in. -/
theorem tryRestore_not_through {step : Restore.RestoreStep}
    (h : Restore.tryRestore o src m = (m', some step)) (hstage : step.stage = .guest)
    (htype : src.snapshotType = .warmFork) : ¬ GoesThrough o src := by
  rintro ⟨hrefresh, htargets, hinject⟩
  unfold Restore.tryRestore at h
  repeat' split at h
  all_goals cases h
  · cases hstage
  · cases hstage
  · rename_i hguest
    unfold Restore.adoptGuest at hguest
    simp only [htype, hrefresh, hinject, Option.isNone_eq_false_iff.mpr htargets] at hguest
    split at hguest
    · cases hguest
      cases hstage
    · cases hguest

/-- What a restore does to the storages; the counter is as before. -/
theorem tryRestore_storages (h : Restore.tryRestore o src m = (m', e)) :
    m'.sandbox.idGenerator = m.sandbox.idGenerator ∧
      ((m'.sandbox.storages = m.sandbox.storages ∧ (e = none → src.snapshotType = .environment)) ∨
        (m'.sandbox.storages = Restore.remapRestoredStorageArtifacts src m.sandbox.baseDir ∧
          src.snapshotType ≠ .environment ∧
          (e ≠ none → src.snapshotType = .warmFork ∧ ¬ GoesThrough o src))) := by
  rcases Restore.tryRestore_spec h with
    ⟨step, rfl, -, hsb⟩ | ⟨client, -, ⟨rfl, -, hsb⟩ | ⟨restored, hfailed, hran⟩⟩
  · rw [hsb]
    exact ⟨rfl, .inl ⟨rfl, by simp⟩⟩
  · rw [hsb]
    exact ⟨rfl, .inl ⟨rfl, by simp⟩⟩
  cases e with
  | none =>
    rw [hran rfl]
    unfold Restore.adoptedStorages
    cases src.snapshotType with
    | environment => exact ⟨rfl, .inl ⟨rfl, fun _ => rfl⟩⟩
    | _ => exact ⟨rfl, .inr ⟨rfl, by simp, by simp⟩⟩
  | some step =>
    obtain ⟨hstage, hnot, hsb⟩ := hfailed step rfl
    rw [hsb]
    unfold Restore.adoptedStorages
    cases htype : src.snapshotType with
    | environment => exact ⟨rfl, .inl ⟨rfl, fun _ => rfl⟩⟩
    | warmFork =>
      exact ⟨rfl, .inr ⟨rfl, by simp, fun _ => ⟨rfl, tryRestore_not_through h hstage htype⟩⟩⟩
    | continuation => exact absurd htype hnot

theorem prepareStep_storages {e : Option Restore.NetworkError}
    (h : Restore.prepareStep o src sb = (sb', e)) :
    sb'.storages = sb.storages ∧ sb'.idGenerator = sb.idGenerator ∧ sb'.baseDir = sb.baseDir := by
  obtain ⟨vm, network, hsb, -⟩ := Restore.prepareStep_spec o src sb
  rw [h] at hsb
  rw [show sb' = _ from hsb]
  exact ⟨rfl, rfl, rfl⟩

theorem stop_storages (ho : ∀ xs, (o.removeContainers xs).Sublist xs) (sb : Restore.Sandbox) :
    (sb.stop o).1.storages.Sublist sb.storages ∧ (sb.stop o).1.idGenerator = sb.idGenerator := by
  have hsub : (if sb.containers.isEmpty then sb.storages
      else o.removeContainers sb.storages).Sublist sb.storages := by
    split
    · exact List.Sublist.refl _
    · exact ho _
  unfold Restore.Sandbox.stop
  split
  · exact ⟨List.Sublist.refl _, rfl⟩
  · exact ⟨List.Sublist.refl _, rfl⟩
  · dsimp only
    split
    · exact ⟨hsub, rfl⟩
    · exact ⟨hsub, rfl⟩

theorem finishStart_storages (ho : ∀ xs, (o.removeContainers xs).Sublist xs)
    (h : Restore.finishStart o src sb = (sb', e)) :
    sb'.storages.Sublist sb.storages ∧ sb'.idGenerator = src.idGenerator := by
  have hback : ∀ sb₁ : Restore.Sandbox, sb₁.storages = sb.storages →
      sb₁.idGenerator = src.idGenerator →
      (Restore.rollbackPostRestore o sb₁).storages.Sublist sb.storages ∧
        (Restore.rollbackPostRestore o sb₁).idGenerator = src.idGenerator := by
    intro sb₁ hst hg
    obtain ⟨hsub, hg'⟩ := stop_storages ho sb₁.clearTemplateRestoreState
    rw [show sb₁.clearTemplateRestoreState.storages = _ from hst] at hsub
    rw [show sb₁.clearTemplateRestoreState.idGenerator = _ from hg] at hg'
    unfold Restore.rollbackPostRestore
    rcases hs : sb₁.clearTemplateRestoreState.stop o with ⟨sb₂, _ | _⟩ <;> rw [hs] at hsub hg'
    · exact ⟨hsub, hg'⟩
    · exact ⟨hsub, hg'⟩
  unfold Restore.finishStart at h
  split at h
  · cases h
    exact hback _ rfl rfl
  split at h
  · cases h
    exact hback _ rfl rfl
  split at h
  · cases h
    exact hback _ rfl rfl
  · cases h
    exact ⟨List.Sublist.refl _, rfl⟩

/-- A restore whose VM runs brings storages that are numbered up to the counter of the template. -/
theorem RestoreSteady.numbered_running (hsteady : RestoreSteady o src s)
    (hr : Restore.tryRestore o src m = (m', none)) (hst : m.sandbox.storages = s.thin) :
    Numbered src.idGenerator m'.sandbox.storages := by
  unfold RestoreSteady at hsteady
  obtain ⟨-, ⟨hkept, htype⟩ | ⟨hremap, htype, -⟩⟩ := tryRestore_storages hr
  · rw [htype rfl] at hsteady
    rw [hkept, hst]
    exact hsteady
  · rw [hremap]
    apply numbered_remap
    rcases hsnap : src.snapshotType with _ | _ | _ <;> rw [hsnap] at hsteady
    · exact absurd hsnap htype
    · exact hsteady.1
    · exact hsteady

/-- A restore that failed leaves storages that are numbered up to the counter of the sandbox. -/
theorem RestoreSteady.numbered_failed (hsteady : RestoreSteady o src s)
    {step : Restore.RestoreStep} (hr : Restore.tryRestore o src m = (m', some step))
    (hst : m.sandbox.storages = s.thin) (hn : s.Numbered) :
    Numbered s.idGenerator m'.sandbox.storages := by
  unfold RestoreSteady at hsteady
  obtain ⟨-, ⟨hkept, -⟩ | ⟨hremap, -, hlate⟩⟩ := tryRestore_storages hr
  · rw [hkept, hst]
    exact hn
  · rw [hremap]
    apply numbered_remap
    obtain ⟨htype, hlate⟩ := hlate (by simp)
    rw [htype] at hsteady
    exact hsteady.2.resolve_left hlate

/-- A restore of the sandboxer keeps the storages numbered. -/
theorem startFromSnapshot_numbered (ho : ∀ xs, (o.removeContainers xs).Sublist xs)
    (hsteady : RestoreSteady o src s) (hp : Projects m.sandbox s) (hn : s.Numbered) :
    Numbered (Restore.startFromSnapshot o src m).1.sandbox.idGenerator
      (Restore.startFromSnapshot o src m).1.sandbox.storages := by
  have hbefore : Numbered m.sandbox.idGenerator m.sandbox.storages := by
    rw [hp.idGenerator, hp.storages]
    exact hn
  unfold Restore.startFromSnapshot
  split
  · exact hbefore
  split
  · exact hbefore
  rcases hprep : Restore.prepareStep o src m.sandbox with ⟨sb, _ | e⟩ <;>
    obtain ⟨hst, hg, -⟩ := prepareStep_storages hprep
  · dsimp only
    rcases hr : Restore.tryRestore o src
      { m with sandbox := { sb with restore := Restore.record src sb } } with ⟨m', _ | step⟩ <;>
      dsimp only
    · -- the VM runs: the counter is that of the template
      rcases hf : Restore.finishStart o src m'.sandbox with ⟨sb', step⟩
      obtain ⟨hsub, hg'⟩ := finishStart_storages ho hf
      rw [hg']
      exact (hsteady.numbered_running hr (hst.trans hp.storages)).sublist hsub
    · -- the restore failed: the counter is that of the sandbox
      show Numbered m'.sandbox.idGenerator m'.sandbox.storages
      rw [(tryRestore_storages hr).1]
      show Numbered sb.idGenerator m'.sandbox.storages
      rw [hg, hp.idGenerator]
      exact hsteady.numbered_failed hr (hst.trans hp.storages) hn
  · show Numbered sb.idGenerator sb.storages
    rw [hst, hg]
    exact hbefore

theorem serviceRestore_numbered (ho : ∀ xs, (o.removeContainers xs).Sublist xs)
    (hsteady : ServiceSteady src s) (hp : Projects m.sandbox s) (hn : s.Numbered) :
    Numbered (serviceRestore o src m).1.sandbox.idGenerator
      (serviceRestore o src m).1.sandbox.storages := by
  obtain ⟨htmpl, hkeep⟩ := hsteady
  unfold serviceRestore
  split
  · rw [hp.idGenerator, hp.storages]
    exact hn
  rcases hprep : Restore.prepareStep o src m.sandbox with ⟨sb, _ | e⟩ <;>
    obtain ⟨hst, hg, hbase⟩ := prepareStep_storages hprep
  · dsimp only
    -- the counter is that of the template already
    have htry : ∀ sb₁ m' step, Restore.tryRestore o src { m with sandbox := sb₁ } = (m', step) →
        sb₁.storages = sb.storages → sb₁.idGenerator = src.idGenerator →
        m'.sandbox.idGenerator = src.idGenerator ∧
          Numbered src.idGenerator m'.sandbox.storages := by
      intro sb₁ m' step hr hst₁ hg₁
      obtain ⟨hg', hst'⟩ := tryRestore_storages hr
      refine ⟨hg'.trans hg₁, ?_⟩
      rcases hst' with ⟨hkept, -⟩ | ⟨hremap, -⟩
      · rw [hkept, hst₁, hst, hp.storages]
        exact hkeep
      · rw [hremap]
        exact numbered_remap htmpl _
    split
    · rename_i m' step hr
      obtain ⟨hg', hn'⟩ := htry _ m' _ hr rfl rfl
      split
      · show Numbered m'.sandbox.idGenerator m'.sandbox.storages
        rw [hg']
        exact hn'
      · show Numbered m'.sandbox.idGenerator m'.sandbox.storages
        rw [hg']
        exact hn'
    · rename_i m' hr
      obtain ⟨hg', hn'⟩ := htry _ m' _ hr rfl rfl
      obtain ⟨hsub, hg''⟩ := stop_storages ho m'.sandbox.clearTemplateRestoreState
      have hstop : Numbered (m'.sandbox.clearTemplateRestoreState.stop o).1.idGenerator
          (m'.sandbox.clearTemplateRestoreState.stop o).1.storages := by
        rw [hg'', show m'.sandbox.clearTemplateRestoreState.idGenerator = _ from hg']
        exact Numbered.sublist hn' hsub
      unfold finishService
      split
      · split <;> exact hstop
      · rw [hg']
        exact hn'
  · show Numbered sb.idGenerator sb.storages
    rw [hst, hg, hp.idGenerator, hp.storages]
    exact hn

end Restore

/-- The storages of the sandbox and those of its dump are numbered. -/
def Inv (w : World) : Prop := w.sandbox.Numbered ∧ ∀ s, w.dumped = some s → s.Numbered

theorem init_inv {w : World} (h : Init w) : Inv w := by
  obtain ⟨hst, -, -, -, hdump⟩ := h
  constructor
  · unfold Sandbox.Numbered thin
    rw [hst]
    exact Numbered.nil _
  · intro s hs
    rw [hdump] at hs
    cases hs

theorem step_inv {e : Event} {w w' : World} (hsteady : Steady e w) (h : next e w w')
    (hinv : Inv w) : Inv w' := by
  obtain ⟨hn, hdumped⟩ := hinv
  cases e with
  | cold client =>
    cases h
    exact ⟨hn, hdumped⟩
  | restore o src =>
    obtain ⟨ho, hd, m, hp, hp'⟩ := h
    rw [Inv, hd]
    have hn' := startFromSnapshot_numbered ho hsteady hp hn
    rw [hp'.idGenerator, hp'.storages] at hn'
    exact ⟨hn', hdumped⟩
  | serviceRestore o src =>
    obtain ⟨ho, hd, m, hp, hp'⟩ := h
    rw [Inv, hd]
    have hn' := serviceRestore_numbered ho hsteady hp hn
    rw [hp'.idGenerator, hp'.storages] at hn'
    exact ⟨hn', hdumped⟩
  | container l =>
    obtain ⟨hl, hd⟩ := h
    rw [Inv, hd]
    refine ⟨step_numbered hl ?_ hn, hdumped⟩
    rintro c option o rfl
    exact hsteady
  | dump =>
    cases h
    refine ⟨hn, ?_⟩
    intro s hs
    cases hs
    exact hn
  | recover client =>
    obtain ⟨s, hs, rfl⟩ := h
    exact ⟨hdumped s hs, hdumped⟩

end World

/-- The next storage and the next device get an id that no storage has. -/
def NextIdFresh (s : Sandbox) : Prop :=
  ∀ x ∈ s.storages, x.id ≠ storageId s.incrementId.idGenerator ∧
    x.deviceId ≠ some (blockId s.incrementId.idGenerator)

/-- A sandbox that was created and never started. -/
def createdWorld : World where
  sandbox := { baseDir := "/run/kuasar/s1", client := false, containers := ∅, guest := ⟨∅, ∅, []⟩ }

def diskContainer : ContainerOption where
  rootfs := []
  spec := some { mounts := [⟨"/data", "bind", "/dev/sda", []⟩], root := none }

/-- The sandbox with this container. -/
def appendDisk (w : World) : World :=
  { w with
    sandbox := (appendContainer { host := fun _ => { blockDevice := true } } "a" diskContainer
      w.sandbox).1 }

def diskTemplate : Restore.SnapshotRestoreParams where
  snapshotDir := "/snap"
  templateId := some "t1"
  snapshotType := .warmFork
  idGenerator := 2
  diskImages := []
  storages := [⟨"storage1", some "blk2", none, false⟩]
  orphanContainerIds := ["b"]
  leaseMode := .shared
  reflinkSupported := true
  memoryRestoreMode := .copy
  warmForkTargets := some []

/-- The sandbox after a restore from the template whose task could not be injected. -/
def failedRestore : World where
  sandbox := {
    baseDir := "/run/kuasar/s1"
    client := true
    storages := [blockStorage "storage1" "b" ⟨"/data", "bind", "/dev/sdb", []⟩ "blk2" .pci "" "ext4"
      none none (some "block:/dev/sdb")]
    containers := ∅
    guest := ⟨∅, ∅, []⟩ }

end Kuasar.Storages

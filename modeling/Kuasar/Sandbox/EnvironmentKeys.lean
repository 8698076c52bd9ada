import Kuasar.Data.Delimited
import Kuasar.Sandbox.StartBalance
import Kuasar.Service.SandboxRun

/-!
# Sandbox.EnvironmentKeys — which templates a derived key finds

A sandbox without a snapshot of its own is restored from an Environment template of the
same VM configuration. The two meet in the pool by a key that is derived from the
configuration: its fields, joined by colons. Templates that an operator makes of a running
sandbox are in the same pool, under keys without colons.

`environment_start_config`: a start by a derived key restores an Environment template, and
one of the same configuration if no kernel or image path has a colon in it. A configuration
that has one there shares its key with another.
-/

namespace Kuasar

inductive ContainerStorageBackend where
  | virtiofs
  | virtioBlk
  deriving DecidableEq, Repr

def ContainerStorageBackend.asStr : ContainerStorageBackend → String
  | .virtiofs => "virtiofs"
  | .virtioBlk => "virtio-blk"

structure VmConfig where
  kernelPath : String
  imagePath : String
  vcpus : ℕ
  memoryMb : ℕ
  kernelParams : String
  storageBackend : ContainerStorageBackend
  deriving DecidableEq, Repr

def VmConfig.Plain (c : VmConfig) : Prop := ':' ∉ c.kernelPath.toList ∧ ':' ∉ c.imagePath.toList

namespace TemplateKey

/-- `TemplateKey::from_vm_config`. -/
def fromVmConfig (kernelPath imagePath : String) (vcpus memoryMb : ℕ)
    (kernelParams storageBackend : String) : TemplateKey :=
  ⟨kernelPath ++ ":" ++ imagePath ++ ":" ++ toString vcpus ++ ":" ++ toString memoryMb ++ ":" ++
    kernelParams ++ ":" ++ storageBackend⟩

/-- `TemplateKey::user`. -/
def user (key : String) : TemplateKey := ⟨key⟩

/-- The key that the sandboxer derives from its configuration. -/
def fromConfig (c : VmConfig) : TemplateKey :=
  fromVmConfig c.kernelPath c.imagePath c.vcpus c.memoryMb c.kernelParams c.storageBackend.asStr

end TemplateKey

namespace EnvironmentKeys

open TemplatePool TemplateStart SandboxRun TemplateKey Delimited

/-! ## When two configurations have one key -/

theorem fromConfig_toList (c : VmConfig) :
    (fromConfig c).key.toList = c.kernelPath.toList ++ ':' :: (c.imagePath.toList ++ ':' ::
      ((toString c.vcpus).toList ++ ':' :: ((toString c.memoryMb).toList ++ ':' ::
        (c.kernelParams.toList ++ ':' :: c.storageBackend.asStr.toList)))) := by
  simp [fromConfig, fromVmConfig, String.toList_append]

theorem asStr_plain (b : ContainerStorageBackend) : ':' ∉ b.asStr.toList := by
  cases b <;> decide

theorem asStr_inj {b b' : ContainerStorageBackend} (h : b.asStr.toList = b'.asStr.toList) :
    b = b' := by
  cases b <;> cases b' <;> first | rfl | exact absurd h (by decide)

variable {c c' : VmConfig}

/-- The key determines a configuration with plain paths among those with plain paths. -/
theorem fromConfig_inj (hc : c.Plain) (hc' : c'.Plain) (h : fromConfig c = fromConfig c') :
    c = c' := by
  have hchars := congrArg (fun k : TemplateKey => k.key.toList) h
  simp only [fromConfig_toList] at hchars
  -- from the left up to the memory, then from the right
  obtain ⟨hkernel, hchars⟩ := cut_first hc.1 hc'.1 hchars
  obtain ⟨himage, hchars⟩ := cut_first hc.2 hc'.2 hchars
  obtain ⟨hvcpus, hchars⟩ :=
    cut_first (notMem_digits rfl c.vcpus) (notMem_digits rfl c'.vcpus) hchars
  obtain ⟨hmemory, hchars⟩ :=
    cut_first (notMem_digits rfl c.memoryMb) (notMem_digits rfl c'.memoryMb) hchars
  obtain ⟨hparams, hbackend⟩ := cut_last (asStr_plain _) (asStr_plain _) hchars
  cases c
  cases c'
  simp only [VmConfig.mk.injEq]
  exact ⟨String.toList_inj.mp hkernel, String.toList_inj.mp himage, digits_inj hvcpus,
    digits_inj hmemory, String.toList_inj.mp hparams, asStr_inj hbackend⟩

theorem fromConfig_eq (h : (fromConfig c').key.toList = (fromConfig c).key.toList) :
    fromConfig c' = fromConfig c := by
  have hkey : (fromConfig c').key = (fromConfig c).key := String.toList_inj.mp h
  calc fromConfig c' = ⟨(fromConfig c').key⟩ := rfl
    _ = ⟨(fromConfig c).key⟩ := by rw [hkey]
    _ = fromConfig c := rfl

/-- What follows a colon of the kernel's path goes to the image's. -/
theorem collides_of_kernel (h : ':' ∈ c.kernelPath.toList) :
    ∃ c', c' ≠ c ∧ fromConfig c' = fromConfig c := by
  obtain ⟨xs, ys, hxs, -⟩ := List.eq_append_cons_of_mem h
  refine ⟨{ c with kernelPath := .ofList xs, imagePath := .ofList ys ++ ":" ++ c.imagePath },
    ?_, fromConfig_eq ?_⟩
  · intro heq
    have hlist := congrArg (fun c => c.kernelPath.toList.length) heq
    simp only [String.toList_ofList, hxs, List.length_append, List.length_cons] at hlist
    omega
  · simp [fromConfig_toList, hxs, String.toList_append]

/-- What comes before a colon of the image's path goes to the kernel's. -/
theorem collides_of_image (h : ':' ∈ c.imagePath.toList) :
    ∃ c', c' ≠ c ∧ fromConfig c' = fromConfig c := by
  obtain ⟨xs, ys, hys, -⟩ := List.eq_append_cons_of_mem h
  refine ⟨{ c with kernelPath := c.kernelPath ++ ":" ++ .ofList xs, imagePath := .ofList ys },
    ?_, fromConfig_eq ?_⟩
  · intro heq
    have hlist := congrArg (fun c => c.imagePath.toList.length) heq
    simp only [String.toList_ofList, hys, List.length_append, List.length_cons] at hlist
    omega
  · simp [fromConfig_toList, hys, String.toList_append]

theorem VmConfig.not_plain (h : ¬ c.Plain) :
    ':' ∈ c.kernelPath.toList ∨ ':' ∈ c.imagePath.toList := by
  by_contra hnone
  exact h (not_or.mp hnone)

/-- A configuration with a colon in a path shares its key with another. -/
theorem fromConfig_collides {c : VmConfig} (hc : ¬ c.Plain) :
    ∃ c', c' ≠ c ∧ fromConfig c' = fromConfig c :=
  (VmConfig.not_plain hc).elim collides_of_kernel collides_of_image

theorem fromConfig_collides_kernel :
    let c : VmConfig := ⟨"/k:v1", "/i", 1, 512, "", .virtiofs⟩
    ∃ c', c' ≠ c ∧ fromConfig c' = fromConfig c :=
  fromConfig_collides fun h => absurd h.1 (by decide)

/-- No key that the service accepts is a derived one. -/
theorem user_ne_fromConfig {key : String} (h : validateKey key = .ok ()) (c : VmConfig) :
    user key ≠ fromConfig c := by
  intro heq
  have hcolon : ':' ∈ key.toList := by
    have hkey : key = (fromConfig c).key := congrArg TemplateKey.key heq
    rw [hkey, fromConfig_toList]
    simp
  unfold validateKey at h
  split at h
  · cases h
  split at h
  · cases h
  split at h
  · cases h
  · rename_i hall
    rw [not_not, List.all_eq_true] at hall
    exact absurd (hall ':' hcolon) (by decide)

/-! ## What is in the pool -/

/-- Where a template comes from: the sandboxer builds it from a configuration, or an operator
makes it of a running sandbox, under a key of their own. -/
inductive Origin where
  | built (c : VmConfig)
  | operator (key : String)
  deriving DecidableEq, Repr

/-- `create_template_worker` builds Environment templates under the derived key of the
configuration it boots; `create_from_sandbox` makes WarmFork templates under a key that the
service has accepted. -/
def Origin.Made (t : PooledTemplate) : Origin → Prop
  | .built c => t.snapshotType = .environment ∧ t.key = fromConfig c
  | .operator key => t.snapshotType = .warmFork ∧ t.key = user key ∧ validateKey key = .ok ()

/-- Every template of the pool was made in one of the two ways, as `origin` tells by its id,
and is filed under its own key. -/
structure Stored (origin : String → Option Origin) (p : TemplatePool) : Prop where
  filed : ∀ key, ∀ t ∈ p.available.queue key, t.key = key
  made : ∀ key, ∀ t ∈ p.available.queue key, ∃ o, origin t.id = some o ∧ o.Made t

variable {origin : String → Option Origin} {p p' : TemplatePool} {key : TemplateKey}
  {t : PooledTemplate}

theorem Stored.pushBack (h : Stored origin p) (ht : ∃ o, origin t.id = some o ∧ o.Made t) :
    Stored origin (p.pushBack t) := by
  constructor
  · intro key u hu
    rcases mem_queue_pushBack hu with hold | ⟨rfl, rfl⟩
    · exact h.filed key u hold
    · rfl
  · intro key u hu
    rcases mem_queue_pushBack hu with hold | ⟨rfl, rfl⟩
    · exact h.made key u hold
    · exact ht

/-- Under a derived key there are templates that were built from a configuration with that
key. -/
theorem Stored.built (h : Stored origin p) (ht : t ∈ p.available.queue (fromConfig c)) :
    t.snapshotType = .environment ∧
      ∃ c', origin t.id = some (.built c') ∧ fromConfig c' = fromConfig c := by
  have hkey := h.filed _ t ht
  obtain ⟨o, ho, hmade⟩ := h.made _ t ht
  cases o with
  | built c' => exact ⟨hmade.1, c', ho, hmade.2.symm.trans hkey⟩
  | operator k =>
    obtain ⟨-, hk, hvalid⟩ := hmade
    exact absurd (hk.symm.trans hkey) (user_ne_fromConfig hvalid c)

/-! ## What a start records -/

section

variable {cfg : Config} {o : TemplateStart.Outcomes} {before r : RestoreMetadata}
  {mode : TemplateLeaseMode}

/-- The record names the template that was restored. -/
def Records (r : RestoreMetadata) (t : PooledTemplate) : Prop :=
  r.templateId = some t.id ∧ r.templateSnapshotType = some t.snapshotType

theorem startFromSnapshot_records
    (h : startFromSnapshot cfg o before p t mode = (p', .ok r)) : Records r t := by
  unfold startFromSnapshot at h
  split at h
  · cases h
  split at h
  · cases h
  split at h
  · cases h
  split at h
  · cases h
  split at h
  · cases h
  split at h
  · cases h
  split at h
  · cases h
  · cases h
    exact ⟨rfl, rfl⟩

theorem endLease_ok {result : Result} (h : endLease o t result = (p', .ok r)) :
    ∃ q, result = (q, .ok r) := by
  obtain ⟨q, x⟩ := result
  cases x with
  | error e => cases h
  | ok r' =>
    cases h
    exact ⟨q, rfl⟩

theorem restoreFromWarmForkTemplate_records
    (h : restoreFromWarmForkTemplate cfg o before p t mode = (p', .ok r)) : Records r t := by
  unfold restoreFromWarmForkTemplate at h
  split at h
  · cases h
  split at h
  · cases h
  split at h
  · cases h
  split at h
  · cases h
  · obtain ⟨q, hstart⟩ := endLease_ok h
    exact startFromSnapshot_records hstart

theorem startWithTemplateKey_records
    (h : startWithTemplateKey cfg o before p key = (p', .ok r)) :
    ∃ q t, acquireOrWait o p key = (q, some t) ∧ Records r t := by
  unfold startWithTemplateKey at h
  split at h
  · cases h
  · rename_i q t hacq
    refine ⟨q, t, hacq, ?_⟩
    split at h
    · split at h
      · cases h
      · obtain ⟨q', hstart⟩ := endLease_ok h
        exact startFromSnapshot_records hstart
    · split at h
      · cases h
      · exact restoreFromWarmForkTemplate_records h
    · cases h

theorem startWithTemplateId_type {templateId : String} {k : Option String}
    (h : startWithTemplateId cfg o before p templateId k = (p', .ok r)) :
    r.templateSnapshotType = some .warmFork := by
  unfold startWithTemplateId at h
  split at h
  · cases h
  · split at h
    · cases h
    · rename_i hkind
      split at h
      · cases h
      split at h
      · cases h
      · rw [(restoreFromWarmForkTemplate_records h).2, not_not.mp hkind]

end

/-- **Configuration of a restored environment.** A sandbox that is started by the key of its
configuration is restored from an Environment template that was built from a configuration
with the same key; it is the same configuration if the paths of both are plain. A configuration
whose paths are not has the key of another one. -/
theorem environment_start_config (cfg : Config) (o : TemplateStart.Outcomes)
    (before : RestoreMetadata) (c : VmConfig) (hp : Stored origin p) {r : RestoreMetadata}
    (h : startWithTemplateKey cfg o before p (fromConfig c) = (p', .ok r)) :
    ∃ id c', r.templateId = some id ∧ r.templateSnapshotType = some .environment ∧
      origin id = some (.built c') ∧ fromConfig c' = fromConfig c ∧
      (c.Plain → c'.Plain → c' = c) ∧
      (¬ c.Plain → ∃ other, other ≠ c ∧ fromConfig other = fromConfig c) := by
  obtain ⟨_, t, hacq, hid, htype⟩ := startWithTemplateKey_records h
  obtain ⟨hkind, c', horigin, hkey⟩ :=
    hp.built (List.mem_of_getLast? (acquireOrWait_latest (hp.filed _) hacq))
  refine ⟨t.id, c', hid, ?_, horigin, hkey, ?_, fun hnot =>
    (VmConfig.not_plain hnot).elim collides_of_kernel collides_of_image⟩
  · rw [htype, hkind]
  · intro hc hc'
    exact fromConfig_inj hc' hc hkey

/-! ## A kernel of another image -/

def emptyPool : TemplatePool := ⟨.empty, .empty, .empty, .empty, 4, 4, 10, .shared, true⟩

theorem emptyPool_stored (origin : String → Option Origin) : Stored origin emptyPool := by
  constructor
  · intro key t ht
    cases ht
  · intro key t ht
    cases ht

def environmentOf (c : VmConfig) : PooledTemplate :=
  ⟨"t1", fromConfig c, .environment, 0, "", 0, [], [], [], none, none, []⟩

def poolOf (c : VmConfig) : TemplatePool := emptyPool.pushBack (environmentOf c)

theorem poolOf_stored (c : VmConfig) : Stored (fun _ => some (.built c)) (poolOf c) :=
  (emptyPool_stored _).pushBack ⟨.built c, rfl, rfl, rfl⟩

/-- A configuration as it is shipped. -/
def stock : VmConfig := ⟨"vmlinux.bin", "kuasar.img", 1, 1024, "", .virtiofs⟩

/-- A start by the key of a configuration, where every step succeeds. -/
def startBy (p : TemplatePool) (c : VmConfig) : Result :=
  startWithTemplateKey copyConfig smooth {} p (fromConfig c)

/-- What a start from the template of the configuration records. -/
def recordOf (c : VmConfig) : RestoreMetadata :=
  record copyConfig {} (poolOf c) (environmentOf c) .shared

theorem environment_start_config_stock :
    ∃ id c', (recordOf stock).templateId = some id ∧
      (recordOf stock).templateSnapshotType = some .environment ∧
      some (Origin.built stock) = some (.built c') ∧ fromConfig c' = fromConfig stock ∧
      (stock.Plain → c'.Plain → c' = stock) ∧
      (¬ stock.Plain → ∃ other, other ≠ stock ∧ fromConfig other = fromConfig stock) := by
  have hrun : startBy (poolOf stock) stock =
      ((startBy (poolOf stock) stock).1, .ok (recordOf stock)) := rfl
  exact environment_start_config copyConfig smooth {} stock (poolOf_stored stock) hrun

/-- A kernel with a colon in its path. -/
def tagged : VmConfig := ⟨"vmlinux:6.1", "kuasar.img", 1, 1024, "", .virtiofs⟩

/-- Another kernel with another image, and the same key. -/
def retagged : VmConfig := ⟨"vmlinux", "6.1:kuasar.img", 1, 1024, "", .virtiofs⟩

/-- A sandbox is restored from a template with another kernel and another image. -/
theorem environment_of_other_config :
    Stored (fun _ => some (.built retagged)) (poolOf retagged) ∧
      (startBy (poolOf retagged) tagged).2 = .ok (recordOf retagged) ∧
      (recordOf retagged).templateId = some (environmentOf retagged).id ∧
      retagged.kernelPath ≠ tagged.kernelPath ∧ retagged.imagePath ≠ tagged.imagePath := by
  refine ⟨poolOf_stored retagged, ?_, rfl, by decide, by decide⟩
  rfl

end EnvironmentKeys

end Kuasar

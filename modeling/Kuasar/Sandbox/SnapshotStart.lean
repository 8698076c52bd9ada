import Kuasar.Sandbox.ContinuationDisks
import Kuasar.Sandbox.EnvironmentKeys

/-!
# Sandbox.SnapshotStart — what a sandbox is started from

The annotations of a pod say what its sandbox is to be restored from: a continuation, by type
or by the uid of the pod, or a WarmFork template, by id or key. `start` reads them, tries what
they ask for, then the Environment template of the VM configuration, and boots a fresh VM at
the end, each as far as the configuration enables it.

A start is a function of the annotations, of what is configured, and of what each attempt
finds and how its steps end. `start_heeds_request` says when a pod that asks for a continuation
or a WarmFork template cannot get a fresh VM or an Environment template, however the steps end.
-/

namespace Kuasar.SnapshotStart

open TemplateStart EnvironmentKeys

/-! ## The annotations -/

abbrev Annotations := List (String × String)

def snapshotTypeAnnotation : String := "kuasar.io/snapshot-type"
def templateKeyAnnotation : String := "kuasar.io/template-key"
def templateIdAnnotation : String := "kuasar.io/template-id"
def podUidAnnotation : String := "kuasar.io/pod-uid"
def workloadGenerationAnnotation : String := "kuasar.io/workload-generation"

structure SnapshotConfig where
  enableEnvironmentRestore : Bool
  enableWarmforkRestore : Bool
  enableContinuationRestore : Bool
  fallbackToFreshBoot : Bool
  defaultMemoryRestoreMode : MemoryRestoreMode

/-- What the annotations ask for. -/
structure SnapshotIntent where
  explicitType : Option SnapshotType
  contIdentity : Option WorkloadIdentity
  templateId : Option String
  templateKey : Option String

/-- Why they cannot be read. -/
inductive IntentError where
  | unknownType (value : String)
  | generationTooLarge (v : ℕ)
  | generationInvalid (s : String)
  deriving DecidableEq, Repr

/-- `SnapshotType::from_annotation`. -/
def fromAnnotation (value : String) : Except IntentError SnapshotType :=
  if value = "warm-fork" ∨ value = "warm_fork" then .ok .warmFork
  else if value = "continuation" then .ok .continuation
  else .error (.unknownType value)

/-- The number that a text of digits stands for; a plus may come before it. -/
def numeral (s : String) : Option ℕ :=
  let digits := if s.toList.head? = some '+' then s.toList.tail else s.toList
  if digits ≠ [] ∧ digits.all Char.isDigit then some (Nat.ofDigitChars 10 digits 0) else none

/-- `str::parse::<u64>`. -/
def parseU64 (s : String) : Option ℕ := (numeral s).filter (· < 2 ^ 64)

def parseGeneration : Option String → Except IntentError ℕ
  | none => .ok 0
  | some s =>
    match parseU64 s with
    | some v => if v < 2 ^ 32 then .ok v else .error (.generationTooLarge v)
    | none => .error (.generationInvalid s)

def explicitType (annotations : Annotations) : Except IntentError (Option SnapshotType) :=
  match annotations.lookup snapshotTypeAnnotation with
  | none => .ok none
  | some value => ( fromAnnotation value).map some

/-- The continuation that is asked for. -/
def contIdentity (cfg : SnapshotConfig) (annotations : Annotations)
    (explicitType : Option SnapshotType) : Except IntentError (Option WorkloadIdentity) :=
  if explicitType = some .environment ∨ explicitType = some .warmFork ∨
      cfg.enableContinuationRestore = false then .ok none
  else
    match annotations.lookup podUidAnnotation with
    | none => .ok none
    | some podUid =>
      (parseGeneration (annotations.lookup workloadGenerationAnnotation)).map
        fun generation => some ⟨podUid, generation⟩

/-- `parse_snapshot_intent`, of a sandbox that is there. -/
def parseSnapshotIntent (cfg : SnapshotConfig) (annotations : Annotations) :
    Except IntentError SnapshotIntent :=
  match explicitType annotations with
  | .error e => .error e
  | .ok type =>
    let named := type ≠ some .environment ∧ type ≠ some .continuation
    match contIdentity cfg annotations type with
    | .error e => .error e
    | .ok identity =>
      .ok { explicitType := type
            contIdentity := identity
            templateId := if named then annotations.lookup templateIdAnnotation else none
            templateKey := if named then annotations.lookup templateKeyAnnotation else none }

/-! ## The attempts -/

/-- What a sandbox runs from in the end. -/
inductive Boot where
  | fresh
  | template (r : RestoreMetadata)
  | continuation (t : PooledTemplate)

/-- Why nothing is started. A fresh boot that fails counts as one. -/
inductive StartError where
  | notFound
  | intent (e : IntentError)
  | continuationNotEnabled
  | missingPodUid
  | warmForkNotEnabled
  | missingTemplate
  | noPool
  | noStore
  | template (e : TemplateStart.StartError)
  | noContinuation (identity : WorkloadIdentity)
  | continuation (failure : Restore.ContinuationFailure)
  | noMatchingSnapshot
  deriving DecidableEq, Repr

/-- The pool at the time of an attempt, and how the steps of the attempt end. -/
structure Attempt where
  pool : TemplatePool
  outcomes : TemplateStart.Outcomes
  before : RestoreMetadata

/-- What the store has for the identity, and how the steps of the restore end. -/
structure ContinuationAttempt where
  acquired : Option PooledTemplate
  config : Restore.ContinuationConfig
  outcomes : Restore.ContinuationOutcomes
  machine : Restore.Machine

/-- Whether there are a pool and a store, the configuration of the VMs, whether the sandbox
is there, and what each attempt finds. -/
structure Surroundings where
  pool : Bool
  store : Bool
  vmConfig : VmConfig
  found : Bool
  warmFork : Attempt
  environment : Attempt
  continuation : ContinuationAttempt

section

variable (cfg : SnapshotConfig) (w : Surroundings)

def templateConfig : TemplateStart.Config :=
  ⟨cfg.enableWarmforkRestore, cfg.defaultMemoryRestoreMode⟩

/-- The result of a start from the pool. -/
def booted (result : Result) : Except StartError Boot :=
  match result.2 with
  | .ok r => .ok (.template r)
  | .error e => .error (.template e)

/-- `start_with_template_key`. -/
def startWithTemplateKey (a : Attempt) (key : TemplateKey) : Except StartError Boot :=
  if w.pool then
    booted (TemplateStart.startWithTemplateKey (templateConfig cfg) a.outcomes a.before a.pool key)
  else .error .noPool

/-- `start_with_template_id`. -/
def startWithTemplateId (a : Attempt) (templateId : String) (key : Option String) :
    Except StartError Boot :=
  if w.pool then
    booted (TemplateStart.startWithTemplateId (templateConfig cfg) a.outcomes a.before a.pool
      templateId key)
  else .error .noPool

/-- `start_with_continuation_snapshot`. -/
def startWithContinuationSnapshot (identity : WorkloadIdentity) : Except StartError Boot :=
  if w.store then
    match w.continuation.acquired with
    | none => .error (.noContinuation identity)
    | some t =>
      match (Restore.startWithContinuationSnapshot w.continuation.config w.continuation.outcomes t
          w.continuation.machine).failure with
      | none => .ok (.continuation t)
      | some failure => .error (.continuation failure)
  else .error .noStore

/-- A WarmFork template by id or by key. -/
def startWarmFork : Option String → Option String → Except StartError Boot
  | none, none => .error .missingTemplate
  | some templateId, key => startWithTemplateId cfg w w.warmFork templateId key
  | none, some key => startWithTemplateKey cfg w w.warmFork (.user key)

/-! ## The start -/

/-- `any_snapshot_restore_enabled`. -/
def SnapshotConfig.anySnapshotRestoreEnabled : Bool :=
  cfg.enableWarmforkRestore || cfg.enableContinuationRestore || cfg.enableEnvironmentRestore

/-- The end of a start: a fresh VM. -/
def freshBoot : Except StartError Boot := if w.found then .ok .fresh else .error .notFound

/-- What is tried when nothing was asked for or what was asked for is not there. -/
def startEnvironment : Except StartError Boot :=
  let attempt :=
    if cfg.enableEnvironmentRestore && w.pool then
      startWithTemplateKey cfg w w.environment (.fromConfig w.vmConfig)
    else .error .noMatchingSnapshot
  match attempt with
  | .ok boot => .ok boot
  | .error _ =>
    if cfg.anySnapshotRestoreEnabled && !cfg.fallbackToFreshBoot then .error .noMatchingSnapshot
    else freshBoot w

def startIntent (intent : SnapshotIntent) : Except StartError Boot :=
  match intent.explicitType with
  | some .continuation =>
    if !cfg.enableContinuationRestore then .error .continuationNotEnabled
    else
      match intent.contIdentity with
      | none => .error .missingPodUid
      | some identity => startWithContinuationSnapshot w identity
  | some .warmFork =>
    if !cfg.enableWarmforkRestore then .error .warmForkNotEnabled
    else startWarmFork cfg w intent.templateId intent.templateKey
  | _ =>
    match intent.contIdentity with
    | some identity => startWithContinuationSnapshot w identity
    | none =>
      if intent.templateId.isSome || intent.templateKey.isSome then
        match startWarmFork cfg w intent.templateId intent.templateKey with
        | .ok boot => .ok boot
        | .error _ => startEnvironment cfg w
      else startEnvironment cfg w

/-- `start`. -/
def start (annotations : Annotations) : Except StartError Boot :=
  if w.pool || w.store then
    if cfg.enableWarmforkRestore || cfg.enableContinuationRestore then
      if !w.found then .error .notFound
      else
        match parseSnapshotIntent cfg annotations with
        | .error e => .error (.intent e)
        | .ok intent => startIntent cfg w intent
    else startEnvironment cfg w
  else freshBoot w

end

/-! ## What is asked for and what is given -/

/-- The pod asks for a continuation: by type, or by its uid where those restores are
enabled. -/
def AsksContinuation (cfg : SnapshotConfig) (annotations : Annotations) : Prop :=
  annotations.lookup snapshotTypeAnnotation = some "continuation" ∨
    (cfg.enableContinuationRestore = true ∧ (annotations.lookup podUidAnnotation).isSome = true)

/-- The pod asks for a WarmFork template by type. -/
def AsksWarmFork (annotations : Annotations) : Prop :=
  annotations.lookup snapshotTypeAnnotation = some "warm-fork" ∨
    annotations.lookup snapshotTypeAnnotation = some "warm_fork"

/-- The annotations are looked at: there is a pool or a store, and one of the two kinds of
restores that annotations can ask for is enabled. -/
def Heard (cfg : SnapshotConfig) (w : Surroundings) : Prop :=
  (w.pool || w.store) = true ∧
    (cfg.enableWarmforkRestore || cfg.enableContinuationRestore) = true

/-- A pod that asks for a WarmFork template by type is started by the key: it names no id, those
restores are enabled and there is a pool. -/
def ForksByKey (cfg : SnapshotConfig) (w : Surroundings) (annotations : Annotations)
    (key : String) : Prop :=
  AsksWarmFork annotations ∧ cfg.enableWarmforkRestore = true ∧ w.pool = true ∧
    annotations.lookup templateIdAnnotation = none ∧
    annotations.lookup templateKeyAnnotation = some key

/-- The latest template of the key is an Environment template. -/
def OffersEnvironment (p : TemplatePool) (key : TemplateKey) : Prop :=
  ∃ t, p.latest key = some t ∧ t.snapshotType = .environment

/-- No request for a snapshot of the pod is passed over. Where the annotations are looked at, the
key of a fork offers no Environment template; where they are not, there is nothing that could be
started instead. -/
def Heeded (cfg : SnapshotConfig) (w : Surroundings) (annotations : Annotations) : Prop :=
  (Heard cfg w ∧ ∀ key, ForksByKey cfg w annotations key →
    ¬ OffersEnvironment w.warmFork.pool (.user key)) ∨
  (¬ Heard cfg w ∧ (w.pool || w.store) = true ∧ cfg.enableEnvironmentRestore = true ∧
    cfg.fallbackToFreshBoot = false ∧
    (w.pool = true → ¬ OffersEnvironment w.environment.pool (.fromConfig w.vmConfig)))

/-- The other surroundings differ in what the steps come to only. -/
structure Surroundings.Alike (w w' : Surroundings) : Prop where
  pool : w'.pool = w.pool
  store : w'.store = w.store
  vmConfig : w'.vmConfig = w.vmConfig
  warmForks : w'.warmFork.pool = w.warmFork.pool
  environments : w'.environment.pool = w.environment.pool

/-- The sandbox runs from something that has no state of the pod: a fresh VM or an
Environment template. -/
def Boot.Stateless : Boot → Prop
  | .fresh => True
  | .template r => r.templateSnapshotType = some .environment
  | .continuation _ => False

section

variable {cfg : SnapshotConfig} {w : Surroundings} {annotations : Annotations} {boot : Boot}

theorem startWithContinuationSnapshot_boot {identity : WorkloadIdentity}
    (h : startWithContinuationSnapshot w identity = .ok boot) : ∃ t, boot = .continuation t := by
  unfold startWithContinuationSnapshot at h
  split at h
  · split at h
    · cases h
    · split at h
      · cases h
        exact ⟨_, rfl⟩
      · cases h
  · cases h

theorem booted_ok {result : Result} (h : booted result = .ok boot) :
    ∃ r, result = (result.1, .ok r) ∧ boot = .template r := by
  obtain ⟨p, x⟩ := result
  cases x with
  | error e => cases h
  | ok r =>
    cases h
    exact ⟨r, rfl, rfl⟩

theorem startWithTemplateKey_boot {a : Attempt} {key : TemplateKey}
    (h : startWithTemplateKey cfg w a key = .ok boot) : ∃ r, boot = .template r ∧
      (a.pool.WellFiled → boot.Stateless → w.pool = true ∧ OffersEnvironment a.pool key) := by
  unfold startWithTemplateKey at h
  split at h
  · rename_i hpool
    obtain ⟨r, hr, rfl⟩ := booted_ok h
    obtain ⟨_, t, hacq, -, htype⟩ := startWithTemplateKey_records hr
    refine ⟨r, rfl, ?_⟩
    intro hw hstateless
    exact ⟨hpool, t, acquireOrWait_latest (hw.key key) hacq,
      Option.some.inj (htype.symm.trans hstateless)⟩
  · cases h

theorem startWithTemplateKey_fails {a : Attempt} (ha : a.outcomes.snapshotFiles = false)
    (key : TemplateKey) : ∃ e, startWithTemplateKey cfg w a key = .error e := by
  cases hres : startWithTemplateKey cfg w a key with
  | error e => exact ⟨e, rfl⟩
  | ok boot =>
    unfold startWithTemplateKey at hres
    split at hres
    · obtain ⟨r, hr, -⟩ := booted_ok hres
      unfold TemplateStart.startWithTemplateKey restoreFromWarmForkTemplate at hr
      simp only [ha] at hr
      grind
    · cases hres

/-- An Environment template that is offered is what the VM runs from if every step succeeds. -/
theorem startWithTemplateKey_environment {a : Attempt} {key : TemplateKey}
    (hpool : w.pool = true) (ha : a.outcomes = smooth) (h : OffersEnvironment a.pool key) :
    ∃ boot, startWithTemplateKey cfg w a key = .ok boot ∧ boot.Stateless := by
  obtain ⟨t, ht, hkind⟩ := h
  have hacq := acquireOrWait_some (o := smooth)
    (acquireForRestoreCall_environment ht hkind true)
  unfold startWithTemplateKey
  rw [if_pos hpool, ha]
  simp only [TemplateStart.startWithTemplateKey, hacq, hkind]
  exact ⟨_, rfl, congrArg some hkind⟩

theorem startWithTemplateId_boot {a : Attempt} {templateId : String} {key : Option String}
    (h : startWithTemplateId cfg w a templateId key = .ok boot) :
    ∃ r, boot = .template r ∧ r.templateSnapshotType = some .warmFork := by
  unfold startWithTemplateId at h
  split at h
  · obtain ⟨r, hr, rfl⟩ := booted_ok h
    exact ⟨r, rfl, startWithTemplateId_type hr⟩
  · cases h

/-- A WarmFork start by id or by key. -/
theorem startWarmFork_boot {templateId key : Option String}
    (h : startWarmFork cfg w templateId key = .ok boot) : ∃ r, boot = .template r ∧
      (w.warmFork.pool.WellFiled → boot.Stateless → w.pool = true ∧ templateId = none ∧
        ∃ k, key = some k ∧ OffersEnvironment w.warmFork.pool (.user k)) := by
  cases templateId with
  | some tid =>
    obtain ⟨r, rfl, htype⟩ := startWithTemplateId_boot h
    refine ⟨r, rfl, ?_⟩
    intro _ hstateless
    cases htype.symm.trans hstateless
  | none =>
    cases key with
    | none => cases h
    | some k =>
      obtain ⟨r, rfl, hoffers⟩ := startWithTemplateKey_boot h
      refine ⟨r, rfl, ?_⟩
      intro hw hstateless
      obtain ⟨hpool, hk⟩ := hoffers hw hstateless
      exact ⟨hpool, rfl, k, rfl, hk⟩

/-! ## What the annotations are read as -/

theorem explicitType_ok {type : Option SnapshotType} (h : explicitType annotations = .ok type) :
    (type = none ∧ annotations.lookup snapshotTypeAnnotation = none) ∨
      (type = some .warmFork ∧ AsksWarmFork annotations) ∨
      (type = some .continuation ∧
        annotations.lookup snapshotTypeAnnotation = some "continuation") := by
  unfold explicitType at h
  split at h
  · rename_i hnone
    cases h
    exact Or.inl ⟨rfl, hnone⟩
  · rename_i value hvalue
    rw [AsksWarmFork, hvalue, Option.some.injEq, Option.some.injEq, Option.some.injEq]
    unfold fromAnnotation at h
    split_ifs at h with hfork hcont
    · cases h
      exact Or.inr (Or.inl ⟨rfl, hfork⟩)
    · cases h
      exact Or.inr (Or.inr ⟨rfl, hcont⟩)
    · cases h

theorem contIdentity_of_podUid {identity : Option WorkloadIdentity}
    (henabled : cfg.enableContinuationRestore = true)
    (huid : (annotations.lookup podUidAnnotation).isSome = true)
    (h : contIdentity cfg annotations none = .ok identity) : ∃ i, identity = some i := by
  obtain ⟨uid, huid⟩ := Option.isSome_iff_exists.mp huid
  unfold contIdentity at h
  rw [if_neg (by simp [henabled]), huid] at h
  cases hgen : parseGeneration (annotations.lookup workloadGenerationAnnotation) with
  | error e =>
    rw [hgen] at h
    cases h
  | ok generation =>
    rw [hgen] at h
    cases h
    exact ⟨_, rfl⟩

/-- The named type is what `explicitType` has read. -/
theorem parseSnapshotIntent_ok {intent : SnapshotIntent}
    (h : parseSnapshotIntent cfg annotations = .ok intent) :
    explicitType annotations = .ok intent.explicitType ∧
      contIdentity cfg annotations intent.explicitType = .ok intent.contIdentity := by
  unfold parseSnapshotIntent at h
  split at h
  · cases h
  · rename_i type htype
    split at h
    · cases h
    · rename_i identity hidentity
      cases h
      exact ⟨htype, hidentity⟩

/-- A pod that asks for a WarmFork template by type is read as such. -/
theorem parseSnapshotIntent_warmFork (h : AsksWarmFork annotations) :
    parseSnapshotIntent cfg annotations = .ok ⟨some .warmFork, none,
      annotations.lookup templateIdAnnotation, annotations.lookup templateKeyAnnotation⟩ := by
  have htype : explicitType annotations = .ok (some .warmFork) := by
    rcases h with hlookup | hlookup
    · rw [explicitType, hlookup]
      rfl
    · rw [explicitType, hlookup]
      rfl
  simp [parseSnapshotIntent, htype, contIdentity]

/-! ## The start -/

/-- A pod that asks for a continuation and not for a WarmFork template gets that or nothing. -/
theorem startIntent_continuation {intent : SnapshotIntent}
    (hparse : parseSnapshotIntent cfg annotations = .ok intent)
    (hasks : AsksContinuation cfg annotations) (hfork : ¬ AsksWarmFork annotations)
    (h : startIntent cfg w intent = .ok boot) : ¬ boot.Stateless := by
  obtain ⟨htype, hcont⟩ := parseSnapshotIntent_ok hparse
  unfold startIntent at h
  rcases explicitType_ok htype with ⟨hnone, hlookup⟩ | ⟨-, hasked⟩ | ⟨hcontinuation, -⟩
  · -- no type is named, so the pod asks by its uid
    have huid : cfg.enableContinuationRestore = true ∧
        (annotations.lookup podUidAnnotation).isSome = true := by
      rcases hasks with hc | huid
      · cases hlookup.symm.trans hc
      · exact huid
    rw [hnone] at hcont
    obtain ⟨identity, hidentity⟩ := contIdentity_of_podUid huid.1 huid.2 hcont
    simp only [hnone, hidentity] at h
    obtain ⟨t, rfl⟩ := startWithContinuationSnapshot_boot h
    exact id
  · exact absurd hasked hfork
  · simp only [hcontinuation] at h
    split at h
    · cases h
    · split at h
      · cases h
      · obtain ⟨t, rfl⟩ := startWithContinuationSnapshot_boot h
        exact id

/-- A pod whose annotations are looked at gets something else only by the key of a fork. -/
theorem start_heard (hw : w.warmFork.pool.WellFiled) (hheard : Heard cfg w)
    (hasks : AsksContinuation cfg annotations ∨ AsksWarmFork annotations)
    (h : start cfg w annotations = .ok boot) (hstateless : boot.Stateless) :
    ∃ key, ForksByKey cfg w annotations key ∧ OffersEnvironment w.warmFork.pool (.user key) := by
  unfold start at h
  rw [if_pos hheard.1, if_pos hheard.2] at h
  split at h
  · cases h
  by_cases hfork : AsksWarmFork annotations
  · rw [parseSnapshotIntent_warmFork hfork] at h
    simp only [startIntent] at h
    split at h
    · cases h
    · rename_i henabled
      obtain ⟨r, rfl, hoffers⟩ := startWarmFork_boot h
      obtain ⟨hpool, hid, key, hkey, hoffered⟩ := hoffers hw hstateless
      refine ⟨key, ⟨hfork, ?_, hpool, hid, hkey⟩, hoffered⟩
      simpa using henabled
  · split at h
    · cases h
    · rename_i intent hparse
      exact absurd hstateless
        (startIntent_continuation hparse (hasks.resolve_right hfork) hfork h)

/-- Without the fallback there is an Environment template or nothing. -/
theorem startEnvironment_boot (hany : cfg.anySnapshotRestoreEnabled = true)
    (hfallback : cfg.fallbackToFreshBoot = false) (h : startEnvironment cfg w = .ok boot) :
    startWithTemplateKey cfg w w.environment (.fromConfig w.vmConfig) = .ok boot := by
  unfold startEnvironment at h
  dsimp only at h
  split at h
  · rename_i hattempt
    cases h
    split at hattempt
    · exact hattempt
    · cases hattempt
  · rw [hany, hfallback] at h
    cases h

theorem startEnvironment_not_fresh (hany : cfg.anySnapshotRestoreEnabled = true)
    (hfallback : cfg.fallbackToFreshBoot = false) : startEnvironment cfg w ≠ .ok .fresh := by
  intro h
  obtain ⟨r, hr, -⟩ := startWithTemplateKey_boot (startEnvironment_boot hany hfallback h)
  cases hr

theorem startIntent_not_fresh (hany : cfg.anySnapshotRestoreEnabled = true)
    (hfallback : cfg.fallbackToFreshBoot = false) {intent : SnapshotIntent} :
    startIntent cfg w intent ≠ .ok .fresh := by
  have hcont : ∀ identity, startWithContinuationSnapshot w identity ≠ .ok .fresh := by
    intro identity h
    obtain ⟨t, ht⟩ := startWithContinuationSnapshot_boot h
    cases ht
  intro h
  unfold startIntent at h
  split at h
  · split at h
    · cases h
    · split at h
      · cases h
      · exact hcont _ h
  · split at h
    · cases h
    · obtain ⟨r, hr, -⟩ := startWarmFork_boot h
      cases hr
  · split at h
    · exact hcont _ h
    · split at h
      · split at h
        · rename_i boot hboot
          obtain ⟨r, hr, -⟩ := startWarmFork_boot (hboot.trans h)
          cases hr
        · exact startEnvironment_not_fresh hany hfallback h
      · exact startEnvironment_not_fresh hany hfallback h

/-! ## When requests are heeded -/

theorem Surroundings.Alike.heeded {w' : Surroundings} (h : w.Alike w')
    (hw : Heeded cfg w annotations) : Heeded cfg w' annotations := by
  simpa only [Heeded, Heard, ForksByKey, h.pool, h.store, h.vmConfig, h.warmForks,
    h.environments] using hw

theorem Heeded.not_stateless (h : Heeded cfg w annotations) (hw : w.warmFork.pool.WellFiled)
    (he : w.environment.pool.WellFiled)
    (hasks : AsksContinuation cfg annotations ∨ AsksWarmFork annotations)
    (hstart : start cfg w annotations = .ok boot) : ¬ boot.Stateless := by
  intro hstateless
  rcases h with ⟨hheard, hkeys⟩ | ⟨hnot, hsome, henabled, hfallback, hnone⟩
  · obtain ⟨key, hfork, hoffers⟩ := start_heard hw hheard hasks hstart hstateless
    exact hkeys key hfork hoffers
  · unfold start at hstart
    rw [if_pos hsome, if_neg fun hkinds => hnot ⟨hsome, hkinds⟩] at hstart
    have hany : cfg.anySnapshotRestoreEnabled = true := by
      simp [SnapshotConfig.anySnapshotRestoreEnabled, henabled]
    have hattempt := startEnvironment_boot hany hfallback hstart
    obtain ⟨r, -, hoffers⟩ := startWithTemplateKey_boot hattempt
    obtain ⟨hpool, hoffered⟩ := hoffers he hstateless
    exact hnone hpool hoffered

/-- The surroundings with a sandbox that is there, where the steps of the attempts end so. -/
def Surroundings.withOutcomes (w : Surroundings) (o : TemplateStart.Outcomes) : Surroundings :=
  { w with
    found := true
    warmFork := { w.warmFork with outcomes := o }
    environment := { w.environment with outcomes := o } }

theorem Surroundings.alike_withOutcomes (w : Surroundings) (o : TemplateStart.Outcomes) :
    w.Alike (w.withOutcomes o) := ⟨rfl, rfl, rfl, rfl, rfl⟩

theorem startEnvironment_of_ok (henabled : cfg.enableEnvironmentRestore = true)
    (hpool : w.pool = true)
    (h : startWithTemplateKey cfg w w.environment (.fromConfig w.vmConfig) = .ok boot) :
    startEnvironment cfg w = .ok boot := by
  simp [startEnvironment, henabled, hpool, h]

theorem startEnvironment_of_fails (ha : w.environment.outcomes.snapshotFiles = false)
    (hfound : w.found = true)
    (hfresh : (cfg.anySnapshotRestoreEnabled && !cfg.fallbackToFreshBoot) = false) :
    startEnvironment cfg w = .ok .fresh := by
  obtain ⟨e, he⟩ := startWithTemplateKey_fails (w := w) ha (.fromConfig w.vmConfig)
  unfold startEnvironment
  rw [he, hfresh]
  dsimp only
  split
  · rename_i hattempt
    split at hattempt <;> cases hattempt
  · simp [freshBoot, hfound]

/-- Where the annotations are not looked at, every step succeeds and the VM runs from an
Environment template, or the files of the snapshot are missing and a fresh VM is booted. -/
theorem exists_startEnvironment
    (hkinds : ¬ (cfg.enableWarmforkRestore || cfg.enableContinuationRestore) = true)
    (h : cfg.enableEnvironmentRestore = true → cfg.fallbackToFreshBoot = false →
      w.pool = true ∧ OffersEnvironment w.environment.pool (.fromConfig w.vmConfig)) :
    ∃ o boot, startEnvironment cfg (w.withOutcomes o) = .ok boot ∧ boot.Stateless := by
  by_cases hstrict : cfg.enableEnvironmentRestore = true ∧ cfg.fallbackToFreshBoot = false
  · obtain ⟨hpool, hoffers⟩ := h hstrict.1 hstrict.2
    obtain ⟨boot, hboot, hstateless⟩ :
        ∃ boot, startWithTemplateKey cfg (w.withOutcomes smooth)
          (w.withOutcomes smooth).environment (.fromConfig w.vmConfig) = .ok boot ∧
            boot.Stateless :=
      startWithTemplateKey_environment hpool rfl hoffers
    exact ⟨smooth, boot, startEnvironment_of_ok hstrict.1 hpool hboot, hstateless⟩
  · refine ⟨{ smooth with snapshotFiles := false }, .fresh, ?_, trivial⟩
    refine startEnvironment_of_fails rfl rfl ?_
    rw [SnapshotConfig.anySnapshotRestoreEnabled, Bool.eq_false_of_not_eq_true hkinds]
    simpa using hstrict

/-- A request that is not heeded in all cases is passed over in one. -/
theorem exists_stateless (h : ¬ Heeded cfg w annotations) :
    ∃ o boot, start cfg (w.withOutcomes o) annotations = .ok boot ∧ boot.Stateless := by
  unfold start
  by_cases hsome : (w.pool || w.store) = true
  · simp only [Surroundings.withOutcomes, hsome, if_true]
    by_cases hkinds : (cfg.enableWarmforkRestore || cfg.enableContinuationRestore) = true
    · -- the key of a fork offers an Environment template
      have hkey : ∃ key, ForksByKey cfg w annotations key ∧
          OffersEnvironment w.warmFork.pool (.user key) := by
        by_contra hnone
        push Not at hnone
        exact h (Or.inl ⟨⟨hsome, hkinds⟩, hnone⟩)
      obtain ⟨key, ⟨hfork, henabled, hpool, hid, hlookup⟩, hoffers⟩ := hkey
      refine ⟨smooth, ?_⟩
      simp only [parseSnapshotIntent_warmFork hfork, startIntent, hid, hlookup, startWarmFork,
        henabled, Bool.not_true, Bool.false_eq_true, if_false]
      exact startWithTemplateKey_environment hpool rfl hoffers
    · simp only [hkinds, Bool.false_eq_true, if_false]
      refine exists_startEnvironment hkinds ?_
      intro henabled hfallback
      by_contra hnone
      exact h (Or.inr ⟨fun hheard => hkinds hheard.2, hsome, henabled, hfallback,
        fun hpool hoffers => hnone ⟨hpool, hoffers⟩⟩)
  · exact ⟨smooth, .fresh, if_neg hsome, trivial⟩

theorem start_not_fresh (hsome : (w.pool || w.store) = true)
    (hany : cfg.anySnapshotRestoreEnabled = true) (hfallback : cfg.fallbackToFreshBoot = false) :
    start cfg w annotations ≠ .ok .fresh := by
  intro h
  unfold start at h
  rw [if_pos hsome] at h
  split at h
  · split at h
    · cases h
    · split at h
      · cases h
      · exact startIntent_not_fresh hany hfallback h
  · exact startEnvironment_not_fresh hany hfallback h

end

/-- A sandboxer with a pool, with a store, or without, whose store has a paused pod. -/
def around (pool store : Bool) (p : TemplatePool) : Surroundings where
  pool := pool
  store := store
  vmConfig := EnvironmentKeys.stock
  found := true
  warmFork := ⟨p, smooth, {}⟩
  environment := ⟨p, smooth, {}⟩
  continuation :=
    ⟨some Restore.pausedPod, Restore.copyConfig, { Restore.dumpFails with dump := true },
      Restore.oneImage⟩

/-- Everything is enabled, and there is no fallback to a fresh VM. -/
def strict : SnapshotConfig := ⟨true, true, true, false, .copy⟩

def environmentOnly : SnapshotConfig := ⟨true, false, false, false, .copy⟩

/-- A pod that asks for its continuation. -/
def pausedAnnotations : Annotations :=
  [( snapshotTypeAnnotation, "continuation"), ( podUidAnnotation, "pod")]

/-- A pod that asks for a WarmFork template by a key. -/
def forkAnnotations (key : String) : Annotations :=
  [( snapshotTypeAnnotation, "warm-fork"), ( templateKeyAnnotation, key)]

theorem emptyPool_wellFiled : emptyPool.WellFiled := by
  refine ⟨?_, List.nodup_nil⟩
  intro key t ht
  cases ht

end Kuasar.SnapshotStart

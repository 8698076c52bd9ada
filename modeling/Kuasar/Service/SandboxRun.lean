import Kuasar.Template.Continuation
import Kuasar.Sandbox.Restore
import Kuasar.Sandbox.TemplateStart

/-!
# Service.SandboxRun — the sandbox-run request of the admin service

A run checks the fields of the request, makes a slot (a directory, a VM, an entry in the
table of sandboxes) under a fresh id, and restores the slot from a WarmFork template or
from a continuation. The handler is a function of the host, and of the outcome of every
fallible step; it returns the host it leaves and the response.

A run that fails leaves no trace exactly if it ends before the directory of the slot is made:
the request is not `Valid`, the id is taken, or the directory cannot be made.
-/

namespace Kuasar.SandboxRun

open Restore TemplateStart

/-! ## The request -/

/-- The fields that the handler reads, as far as they have the type it asks for. A `generation` that
is there and is not a number is `some none`. -/
structure Request where
  snapshotType : Option String := none
  templateKey : Option String := none
  templateId : Option String := none
  podUid : Option String := none
  generation : Option (Option (Fin (2 ^ 64))) := none

inductive KeyError where
  | length (n : ℕ)
  | ends (key : String)
  | characters (key : String)
  deriving DecidableEq, Repr

/-- `validate_key`. -/
def validateKey (key : String) : Except KeyError Unit :=
  if key.isEmpty ∨ 253 < key.utf8ByteSize then .error (.length key.utf8ByteSize)
  else if ¬ (key.toList.head?.any Char.isAlphanum ∧ key.toList.getLast?.any Char.isAlphanum) then
    .error (.ends key)
  else if ¬ key.toList.all fun c => c.isAlphanum || c == '-' || c == '_' || c == '.' then
    .error (.characters key)
  else .ok ()

inductive IdError where
  | length (n : ℕ)
  | characters (id : String)
  deriving DecidableEq, Repr

/-- `validate_id`. -/
def validateId (id : String) : Except IdError Unit :=
  if id.utf8ByteSize < 12 ∨ 64 < id.utf8ByteSize then .error (.length id.utf8ByteSize)
  else if ¬ id.toList.all fun c => c.isAlphanum || c == '-' || c == '_' then .error (.characters id)
  else .ok ()

/-! ## The host -/

/-- A sandbox of the table. One that was made for a run has neither a network namespace nor a
cgroup. -/
structure Slot where
  id : String
  status : SandboxStatus := .created
  netns : String := ""
  cgroupParentPath : String := ""
  restore : RestoreMetadata := {}
  deriving DecidableEq, Repr

/-- The pool and the continuation store are there if they are configured. `baseDirs` are the
directories below the base directory of the sandboxes. -/
structure Host where
  pool : Option TemplatePool
  store : Option (List ContinuationStore.Entry)
  sandboxes : List Slot
  baseDirs : List String

/-- The outcome of every fallible step: of the slot, of the acquisition of a continuation, and of
the restore. -/
structure Outcomes where
  createDir : Bool
  createVm : Bool
  setupSandboxFiles : Bool
  dumpSlot : Bool
  statDir : Bool
  statMarker : Bool
  readMetadata : Bool
  createMarker : Bool
  syncMarker : Bool
  removeMarker : Bool
  start : TemplateStart.Outcomes
  pid : ℕ

/-- Why a request is answered with `ok: false`. -/
inductive Refusal where
  | warmForkFields
  | warmForkSelector
  | continuationFields
  | continuationPodUid
  | unknownType (snapshotType : String)
  deriving DecidableEq, Repr

inductive SlotError where
  | alreadyExists
  | createDir
  | createVm
  | setupSandboxFiles
  | dump
  deriving DecidableEq, Repr

inductive RunError where
  | refused (r : Refusal)
  | invalidKey (e : KeyError)
  | invalidTemplateId (e : IdError)
  | slot (e : SlotError)
  | poolNotConfigured
  | storeNotConfigured
  | restore (e : StartError)
  deriving DecidableEq, Repr

/-- The answer to a run that succeeded. -/
structure Response where
  sandboxId : String
  templateId : String
  deriving DecidableEq, Repr

namespace Host

def find (h : Host) (id : String) : Option Slot := h.sandboxes.find? (·.id == id)

def update (h : Host) (sb : Slot) : Host :=
  { h with sandboxes := h.sandboxes.map fun s => if s.id = sb.id then sb else s }

/-- `create_dir_all` of a base directory. -/
def makeDir (h : Host) (id : String) : Host :=
  if id ∈ h.baseDirs then h else { h with baseDirs := h.baseDirs ++ [id] }

end Host

section

variable (o : Outcomes) (id : String)

/-! ## The slot -/

/-- `create_sandbox_slot`. -/
def createSandboxSlot (h : Host) : Host × Option SlotError :=
  if (h.find id).isSome then (h, some .alreadyExists)
  else if !o.createDir then (h, some .createDir)
  else
    let h' := h.makeDir id
    if !o.createVm then (h', some .createVm)
    else if !o.setupSandboxFiles then (h', some .setupSandboxFiles)
    else if !o.dumpSlot then (h', some .dump)
    else ({ h' with sandboxes := h'.sandboxes ++ [{ id }] }, none)

/-! ## The restores -/

/-- A sandbox after a restore that failed. The record is cleared once it was written; after the
start itself, the sandbox was running. -/
def Slot.failed (sb : Slot) : StartError → Slot
  | .restore => { sb with restore := {} }
  | .addToCgroup => { sb with status := .running o.pid, restore := {} }
  | .dump => { sb with status := .running o.pid, restore := {} }
  | _ => sb

/-- The steps that a sandbox without a network namespace or a cgroup does not take do not fail. -/
def startOutcomes (sb : Slot) : TemplateStart.Outcomes :=
  { o.start with
    sandboxFound := true
    created := sb.status == .created
    prepareNetwork := sb.netns.isEmpty || o.start.prepareNetwork
    addToCgroup := sb.cgroupParentPath.isEmpty || o.start.addToCgroup }

/-- `restore_sandbox_warm_fork`. -/
def runWarmFork (key templateId : Option String) (h : Host) : Host × Except RunError Response :=
  match h.find id with
  | none => (h, .error (.restore .sandboxNotFound))
  | some sb =>
    if sb.status ≠ .created then (h, .error (.restore .notCreated))
    else
      match h.pool with
      | none => (h, .error .poolNotConfigured)
      | some pool =>
        let r := restoreSandboxWarmFork (startOutcomes o sb) sb.restore pool key templateId
        match r.2 with
        | .error e =>
          ({ h with pool := some r.1 }.update (sb.failed o e), .error (.restore e))
        | .ok m =>
          ({ h with pool := some r.1 }.update { sb with status := .running o.pid, restore := m },
            .ok ⟨id, m.templateId.getD ""⟩)

def setMarker (identity : WorkloadIdentity) (marker : Bool)
    (entries : List ContinuationStore.Entry) : List ContinuationStore.Entry :=
  entries.map fun e => if e.identity = identity then { e with marker } else e

/-- `ContinuationStore::acquire`. A marker that could not be synced stays. -/
def acquire (identity : WorkloadIdentity) (entries : List ContinuationStore.Entry) :
    List ContinuationStore.Entry × Option PooledTemplate :=
  match entries.find? (·.identity == identity) with
  | none => (entries, none)
  | some e =>
    if !(o.statDir && e.dir) then (entries, none)
    else if o.statMarker && e.marker then (entries, none)
    else
      match if o.readMetadata then e.metadata else none with
      | none => (entries, none)
      | some t =>
        if t.snapshotType ≠ .continuation then (entries, none)
        else if t.workloadIdentity ≠ some identity then (entries, none)
        else if !o.createMarker then (entries, none)
        else if !o.syncMarker then (setMarker identity true entries, none)
        else (setMarker identity true entries, some t)

/-- `ContinuationLease::fail`. -/
def leaseFail (identity : WorkloadIdentity) (entries : List ContinuationStore.Entry) :
    List ContinuationStore.Entry :=
  if o.removeMarker then setMarker identity false entries else entries

/-- The record of a sandbox that is restored from a continuation. -/
def continuationRecord (h : Host) (sb : Slot) (t : PooledTemplate) : RestoreMetadata where
  templateId := some t.id
  templateSnapshotType := some .continuation
  leaseMode := some .exclusive
  reflinkSupported := some ((h.pool.map (·.reflinkSupported)).getD false)
  memoryRestoreMode := sb.restore.memoryRestoreMode
  orphanContainerIds := t.orphanContainerIds

/-- The restore with its lease: the first step that fails. -/
def continuationFault (sb : Slot) : Option StartError :=
  if !o.start.restore then some .restore
  else if !(sb.cgroupParentPath.isEmpty || o.start.addToCgroup) then some .addToCgroup
  else if !o.start.dump then some .dump
  else none

/-- `restore_sandbox_continuation`. -/
def runContinuation (identity : WorkloadIdentity) (h : Host) :
    Host × Except RunError Response :=
  match h.find id with
  | none => (h, .error (.restore .sandboxNotFound))
  | some sb =>
    if sb.status ≠ .created then (h, .error (.restore .notCreated))
    else
      match h.store with
      | none => (h, .error .storeNotConfigured)
      | some entries =>
        let r := acquire o identity entries
        match r.2 with
        | none => ({ h with store := some r.1 }, .error (.restore .miss))
        | some t =>
          match continuationFault o sb with
          | some e =>
            ({ h with store := some (leaseFail o identity r.1) }.update (sb.failed o e),
              .error (.restore e))
          | none =>
            ({ h with store := some r.1 }.update
                { sb with status := .running o.pid, restore := continuationRecord h sb t },
              .ok ⟨id, t.id⟩)

/-! ## The handler -/

def runSlot (restore : Host → Host × Except RunError Response) (h : Host) :
    Host × Except RunError Response :=
  match (createSandboxSlot o id h).2 with
  | some e => ((createSandboxSlot o id h).1, .error (.slot e))
  | none => restore (createSandboxSlot o id h).1

/-- What the handler asks of a request: which restore to run, or why not. -/
def Request.check (req : Request) :
    Except RunError (Option String × Option String ⊕ WorkloadIdentity) :=
  let snapshotType := req.snapshotType.getD ""
  if snapshotType = "warm_fork" then
    if req.podUid.isSome || req.generation.isSome then .error (.refused .warmForkFields)
    else
      match req.templateKey.elim (.ok ()) validateKey with
      | .error e => .error (.invalidKey e)
      | .ok () =>
        match req.templateId.elim (.ok ()) validateId with
        | .error e => .error (.invalidTemplateId e)
        | .ok () =>
          if req.templateKey.isNone && req.templateId.isNone then
            .error (.refused .warmForkSelector)
          else .ok (.inl (req.templateKey, req.templateId))
  else if snapshotType = "continuation" then
    if req.templateId.isSome || req.templateKey.isSome then .error (.refused .continuationFields)
    else
      match req.podUid with
      | none => .error (.refused .continuationPodUid)
      -- `as u32` drops the high half
      | some podUid => .ok (.inr ⟨podUid, (req.generation.join.elim 0 Fin.val) % 2 ^ 32⟩)
  else .error (.refused (.unknownType snapshotType))

/-- `handle_sandbox_run`, with `id` for the fresh id of the sandbox. -/
def handleSandboxRun (req : Request) (h : Host) : Host × Except RunError Response :=
  match req.check with
  | .error e => (h, .error e)
  | .ok (.inl (key, templateId)) => runSlot o id (runWarmFork o id key templateId) h
  | .ok (.inr identity) => runSlot o id (runContinuation o id identity) h

end

/-! ## Requests that are run -/

/-- A key of up to 253 bytes, with a letter or a digit at either end. -/
def ValidKey (key : String) : Prop :=
  key.utf8ByteSize ≤ 253 ∧ (∃ c ∈ key.toList.head?, c.isAlphanum = true) ∧
  (∃ c ∈ key.toList.getLast?, c.isAlphanum = true) ∧
  ∀ c ∈ key.toList, c.isAlphanum = true ∨ c = '-' ∨ c = '_' ∨ c = '.'

/-- An id of 12 to 64 bytes. -/
def ValidId (id : String) : Prop :=
  12 ≤ id.utf8ByteSize ∧ id.utf8ByteSize ≤ 64 ∧
  ∀ c ∈ id.toList, c.isAlphanum = true ∨ c = '-' ∨ c = '_'

/-- A run of a WarmFork template, by its key or its id. -/
structure Request.WarmFork (req : Request) : Prop where
  kind : req.snapshotType = some "warm_fork"
  fields : req.podUid = none ∧ req.generation = none
  key : ∀ key ∈ req.templateKey, ValidKey key
  id : ∀ id ∈ req.templateId, ValidId id
  selector : req.templateKey ≠ none ∨ req.templateId ≠ none

/-- A run of the continuation of a pod. -/
structure Request.Continuation (req : Request) : Prop where
  kind : req.snapshotType = some "continuation"
  fields : req.templateId = none ∧ req.templateKey = none
  podUid : req.podUid ≠ none

def Request.Valid (req : Request) : Prop := req.WarmFork ∨ req.Continuation

theorem validateKey_ok_iff {key : String} : validateKey key = .ok () ↔ ValidKey key := by
  unfold validateKey ValidKey
  split_ifs with hsize hends hall
  · rcases hsize with hempty | hlong
    · simp_all
    · simp
      omega
  · simp_all [Option.any_eq_true]
    simpa [or_assoc] using hall
  · simp_all [Option.any_eq_true]
    simpa [and_assoc] using hall
  · simp_all [Option.any_eq_true]

theorem validateId_ok_iff {id : String} : validateId id = .ok () ↔ ValidId id := by
  unfold validateId ValidId
  split_ifs with hsize hall
  · simp
    omega
  · simp_all [or_assoc]
  · simp_all [and_assoc]

/-- The checks of an optional field. -/
theorem elim_ok_iff {ε : Type} {check : String → Except ε Unit} {ok : String → Prop}
    (h : ∀ s, check s = .ok () ↔ ok s) (field : Option String) :
    field.elim (.ok ()) check = .ok () ↔ ∀ s ∈ field, ok s := by
  cases field <;> simp [h]

/-- The handler goes on exactly with the requests that are valid. -/
theorem check_ok_iff {req : Request} : (∃ run, req.check = .ok run) ↔ req.Valid := by
  have hkey := elim_ok_iff (fun s => @validateKey_ok_iff s) req.templateKey
  have hid := elim_ok_iff (fun s => @validateId_ok_iff s) req.templateId
  constructor
  · rintro ⟨run, hrun⟩
    unfold Request.check at hrun
    dsimp only at hrun
    split at hrun
    · rename_i hkind
      split at hrun
      · cases hrun
      · split at hrun
        · cases hrun
        · split at hrun
          · cases hrun
          · rename_i hfields _ hk _ hi
            split at hrun
            · cases hrun
            · rename_i hsel
              exact Or.inl ⟨by cases h : req.snapshotType <;> simp_all, by simpa using hfields,
                hkey.mp hk, hid.mp hi, by simpa [Decidable.or_iff_not_imp_left] using hsel⟩
    · split at hrun
      · rename_i hkind
        split at hrun
        · cases hrun
        · split at hrun
          · cases hrun
          · rename_i hfields _ _ hpod
            exact Or.inr ⟨by cases h : req.snapshotType <;> simp_all, by simpa using hfields,
              by simp [hpod]⟩
      · cases hrun
  · rintro (h | h)
    · have hsel := not_and_or.mpr h.selector
      simp [Request.check, h.kind, h.fields, hkey.mpr h.key, hid.mpr h.id, hsel]
    · obtain ⟨podUid, hpod⟩ := Option.ne_none_iff_exists'.mp h.podUid
      simp [Request.check, h.kind, h.fields, hpod]

variable {o : Outcomes} {id : String} {h : Host}

/-! ## What the steps leave -/

theorem makeDir_mem : id ∈ (h.makeDir id).baseDirs := by
  unfold Host.makeDir
  split
  · assumption
  · simp

/-- The id is free and the directory of the slot can be made. -/
def DirMade (o : Outcomes) (id : String) (h : Host) : Prop :=
  (∀ sb ∈ h.sandboxes, sb.id ≠ id) ∧ o.createDir = true

/-- The three ways to leave `create_sandbox_slot`: before and after the directory is made, and with
the slot in the table. -/
theorem createSandboxSlot_cases (o : Outcomes) (id : String) (h : Host) :
    (¬ DirMade o id h ∧ ∃ e, createSandboxSlot o id h = (h, some e)) ∨
      DirMade o id h ∧ ((∃ e, createSandboxSlot o id h = (h.makeDir id, some e)) ∨
        createSandboxSlot o id h =
          ({ h.makeDir id with sandboxes := (h.makeDir id).sandboxes ++ [{ id }] }, none)) := by
  have hfind : (h.find id).isSome = true ↔ ∃ sb ∈ h.sandboxes, sb.id = id := by
    simp [Host.find]
  unfold createSandboxSlot
  split
  · rename_i hsome
    obtain ⟨sb, hsb, hid⟩ := hfind.mp hsome
    exact Or.inl ⟨fun hmade => hmade.1 sb hsb hid, _, rfl⟩
  · rename_i hnone
    split
    · rename_i hdir
      refine Or.inl ⟨fun hmade => ?_, _, rfl⟩
      simp [hmade.2] at hdir
    · rename_i hdir
      refine Or.inr ⟨⟨fun sb hsb hid => hnone (hfind.mpr ⟨sb, hsb, hid⟩), by simpa using hdir⟩, ?_⟩
      split
      · exact Or.inl ⟨_, rfl⟩
      · split
        · exact Or.inl ⟨_, rfl⟩
        · split
          · exact Or.inl ⟨_, rfl⟩
          · exact Or.inr rfl

/-! ## A restore neither makes nor removes a directory -/

theorem runWarmFork_baseDirs (key templateId : Option String) (h : Host) :
    (runWarmFork o id key templateId h).1.baseDirs = h.baseDirs := by
  unfold runWarmFork
  split
  · rfl
  · split
    · rfl
    · split
      · rfl
      · dsimp only
        split <;> rfl

theorem runContinuation_baseDirs (identity : WorkloadIdentity) (h : Host) :
    (runContinuation o id identity h).1.baseDirs = h.baseDirs := by
  unfold runContinuation
  split
  · rfl
  · split
    · rfl
    · split
      · rfl
      · dsimp only
        split
        · rfl
        · split <;> rfl

/-! ## A run that fails -/

/-- The host after the slot and the restore: as it was, or with the directory of the slot. -/
theorem runSlot_cases {restore : Host → Host × Except RunError Response}
    (hrestore : ∀ h, (restore h).1.baseDirs = h.baseDirs) :
    (¬ DirMade o id h ∧ (runSlot o id restore h).1 = h) ∨
      (DirMade o id h ∧ id ∈ (runSlot o id restore h).1.baseDirs) := by
  unfold runSlot
  rcases createSandboxSlot_cases o id h with ⟨hnone, e, hslot⟩ | ⟨hmade, ⟨e, hslot⟩ | hslot⟩
  · rw [hslot]
    exact Or.inl ⟨hnone, rfl⟩
  · rw [hslot]
    exact Or.inr ⟨hmade, makeDir_mem⟩
  · rw [hslot]
    refine Or.inr ⟨hmade, ?_⟩
    rw [hrestore]
    exact makeDir_mem

/-- The sandboxes of the table and the directories are the same. -/
def SameSlots (h' h : Host) : Prop := h'.sandboxes = h.sandboxes ∧ h'.baseDirs = h.baseDirs

/-- So is the host after a run. -/
theorem handleSandboxRun_cases (req : Request) :
    (¬ (req.Valid ∧ DirMade o id h) ∧ (handleSandboxRun o id req h).1 = h) ∨
      ((req.Valid ∧ DirMade o id h) ∧ id ∈ (handleSandboxRun o id req h).1.baseDirs) := by
  have hvalid := @check_ok_iff req
  unfold handleSandboxRun
  rcases hcheck : req.check with e | ⟨key, templateId⟩ | identity
  · rw [hcheck] at hvalid
    exact Or.inl ⟨fun hv => by simpa using hvalid.mpr hv.1, rfl⟩
  · simp only [hvalid.mp ⟨_, hcheck⟩, true_and]
    exact runSlot_cases fun h => runWarmFork_baseDirs key templateId h
  · simp only [hvalid.mp ⟨_, hcheck⟩, true_and]
    exact runSlot_cases fun h => runContinuation_baseDirs identity h

/-- A run leaves the table of the sandboxes and their directories as they were exactly if the
request is not valid, the id is taken, or the directory of the slot cannot be made: no error
after that removes the slot. -/
theorem handleSandboxRun_unchanged_iff (o : Outcomes) (req : Request) (hfresh : id ∉ h.baseDirs) :
    SameSlots (handleSandboxRun o id req h).1 h ↔
      ¬ req.Valid ∨ (∃ sb ∈ h.sandboxes, sb.id = id) ∨ o.createDir = false := by
  have hnot : ¬ (req.Valid ∧ DirMade o id h) ↔
      ¬ req.Valid ∨ (∃ sb ∈ h.sandboxes, sb.id = id) ∨ o.createDir = false := by
    simp only [DirMade, not_and_or, not_forall, not_not, Bool.not_eq_true, exists_prop]
  rw [← hnot]
  rcases handleSandboxRun_cases (o := o) req with ⟨hcond, hsame⟩ | ⟨hmade, hmem⟩
  · rw [hsame]
    exact iff_of_true ⟨rfl, rfl⟩ hcond
  · refine iff_of_false ?_ (not_not.mpr hmade)
    rintro ⟨-, hdirs⟩
    rw [hdirs] at hmem
    exact hfresh hmem

/-- Every step succeeds. -/
def allWell : Outcomes where
  createDir := true
  createVm := true
  setupSandboxFiles := true
  dumpSlot := true
  statDir := true
  statMarker := true
  readMetadata := true
  createMarker := true
  syncMarker := true
  removeMarker := true
  start := ⟨true, [], true, none, true, true, true, true, true, true, true, true,
    fun _ => true, fun _ => true⟩
  pid := 7

def emptyHost : Host := ⟨none, none, [], []⟩

/-- A host with one sandbox. -/
def oneSandbox : Host := ⟨none, some [], [{ id := "s0" }], ["s0"]⟩

/-- A WarmFork run whose key starts with a hyphen, and a continuation run whose directory cannot
be made. -/
theorem handleSandboxRun_unchanged_early :
    SameSlots (handleSandboxRun allWell "sb"
      { snapshotType := some "warm_fork", templateKey := some "-web" } oneSandbox).1 oneSandbox ∧
    SameSlots (handleSandboxRun { allWell with createDir := false } "sb"
      { snapshotType := some "continuation", podUid := some "pod" } oneSandbox).1 oneSandbox := by
  have hkey : ¬ ValidKey "-web" := by
    rw [← validateKey_ok_iff]
    decide
  refine ⟨(handleSandboxRun_unchanged_iff _ _ (by decide)).mpr (Or.inl ?_),
    (handleSandboxRun_unchanged_iff _ _ (by decide)).mpr (Or.inr (Or.inr rfl))⟩
  rintro (h | h)
  · exact hkey (h.key _ rfl)
  · simpa using h.kind

/-- A run of a WarmFork template on a host that has no pool, and one of a continuation for which
there is no entry: the caller is told the error only, and the slot stays. -/
theorem handleSandboxRun_leaves_slot :
    ((handleSandboxRun allWell "sb" { snapshotType := some "warm_fork", templateKey := some "web" }
        emptyHost).2 = .error .poolNotConfigured ∧
      (handleSandboxRun allWell "sb" { snapshotType := some "warm_fork", templateKey := some "web" }
        emptyHost).1.sandboxes = [{ id := "sb" }] ∧
      (handleSandboxRun allWell "sb" { snapshotType := some "warm_fork", templateKey := some "web" }
        emptyHost).1.baseDirs = ["sb"]) ∧
    (handleSandboxRun allWell "sb" { snapshotType := some "continuation", podUid := some "pod" }
        { emptyHost with store := some [] }).2 = .error (.restore .miss) ∧
      (handleSandboxRun allWell "sb" { snapshotType := some "continuation", podUid := some "pod" }
        { emptyHost with store := some [] }).1.sandboxes = [{ id := "sb" }] := by
  exact ⟨⟨rfl, rfl, rfl⟩, rfl, rfl⟩

end Kuasar.SandboxRun

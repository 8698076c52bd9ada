import Kuasar.Template.Lease
import Kuasar.Sandbox.Restore

/-!
# Sandbox.TearDown — the two ways a sandbox is torn down

A sandbox goes through `delete` of the sandboxer or through `destroy_sandbox` of the
admin service. Both stop it, remove its directory, and give back what the record of its
restore says it took; they were written separately. Here both are functions of the host:
the pool, the two stores on disk, the directories of the sandboxes and the table of the
registered ones.

`Released` says what the end of a sandbox should give back, by the record alone.
-/

namespace Kuasar.TearDown

open TemplatePool Restore RestoreMetadata

/-! ## The host -/

/-- A directory of the template store, and whether the consumed marker is in it. -/
structure TemplateDir where
  dir : StoreDir
  consumed : Bool
  deriving DecidableEq, Repr

/-- A directory of the continuation store: its metadata names the template. -/
structure ContinuationEntry where
  identity : WorkloadIdentity
  templateId : String
  consumed : Bool
  deriving DecidableEq, Repr

structure Sandbox where
  id : String
  baseDir : String
  status : SandboxStatus
  restore : RestoreMetadata
  deriving DecidableEq, Repr

/-- The pool and the continuation store are there if they are configured; what is on disk
is there in any case. -/
structure Host where
  pool : Option TemplatePool
  continuationStore : Bool
  templates : List TemplateDir
  continuations : List ContinuationEntry
  baseDirs : List String
  sandboxes : List Sandbox

/-- What the calls to the system come to. `gc` is asked for a template that the water-level
collection removes, `reads` for an entry of the continuation store: whether the walk comes
to it and can read its metadata. -/
structure Outcomes where
  vmStop : Bool := true
  cgroup2 : Bool := true
  removeCgroups : Bool := true
  cleanupMounts : Bool := true
  removeBaseDir : Bool := true
  gc : String → Bool := fun _ => true
  statMarker : Bool := true
  removeConsumed : Bool := true
  reads : ContinuationEntry → Bool := fun _ => true
  removeEntry : Bool := true

inductive TearDownError where
  | notFound (id : String)
  | status (id : String)
  | vmStop
  | cgroups
  | mounts
  | baseDir
  deriving DecidableEq, Repr

/-! ## The steps -/

/-- `KuasarSandbox::stop`: a sandbox that is stopped already is stopped. -/
def stop (o : Outcomes) (sb : Sandbox) : Option TearDownError :=
  match sb.status with
  | .created => if o.vmStop then none else some .vmStop
  | .running _ => if o.vmStop then none else some .vmStop
  | .stopped => none
  | .paused => some (.status sb.id)

namespace Host

/-- The removal of a base directory; one that is not there is no error. -/
def removeBaseDir (o : Outcomes) (dir : String) (h : Host) : Option Host :=
  if dir ∈ h.baseDirs then
    if o.removeBaseDir then some { h with baseDirs := h.baseDirs.filter (· ≠ dir) } else none
  else some h

/-- `find_template_dir`. -/
def findTemplateDir (h : Host) (id : String) : StoreDir :=
  if (h.templates.map (·.dir)).contains ["environment", id] then ["environment", id]
  else if (h.templates.map (·.dir)).contains ["warmfork", id] then ["warmfork", id]
  else ["environment", id]

/-- `cleanup_consumed`: the errors are logged. -/
def cleanupConsumed (o : Outcomes) (id : String) (h : Host) : Host :=
  if o.statMarker && (h.templates.any fun d => d.dir == h.findTemplateDir id && d.consumed) then
    if o.removeConsumed then
      { h with templates := h.templates.filter fun d => d.dir ≠ h.findTemplateDir id }
    else h
  else h

/-- The directories that the water-level collection of `pool` removes. -/
def gcDirs (o : Outcomes) (pool : TemplatePool) (h : Host) : Host :=
  if pool.totalDepth ≤ pool.gcWatermark then h
  else
    { h with
      templates := h.templates.filter fun d =>
        !(pool.gcBatch pool.totalDepth).any fun t => templateDir t == some d.dir && o.gc t.id }

/-- `deref` of the pool, with what it collects. -/
def deref (o : Outcomes) (pool : TemplatePool) (id : String) (h : Host) : Host :=
  let h' := if (pool.deref id).2 then h.gcDirs o (pool.deref id).1 else h
  { h' with pool := some (pool.derefCall o.gc id) }

/-- `delete_by_template_id`: the first entry that names the template goes. The error is logged by
the caller. -/
def deleteByTemplateId (o : Outcomes) (id : String) (h : Host) : Host :=
  match h.continuations.find? fun e => o.reads e && e.templateId == id with
  | none => h
  | some e =>
    if o.removeEntry then
      { h with continuations := h.continuations.filter (·.identity ≠ e.identity) }
    else h

/-- What the record asks to give back. Without a pool nothing is given back. -/
def dispose (o : Outcomes) (d : RestoreMetadata.Disposal) (h : Host) : Host :=
  match h.pool with
  | none => h
  | some pool =>
    match d with
    | .keep => h
    | .deref id => h.deref o pool id
    | .cleanupConsumed id => h.cleanupConsumed o id
    | .deleteContinuation id => if h.continuationStore then h.deleteByTemplateId o id else h

def find (h : Host) (id : String) : Option Sandbox := h.sandboxes.find? (·.id == id)

def unregister (id : String) (h : Host) : Host :=
  { h with sandboxes := h.sandboxes.filter (·.id ≠ id) }

end Host

/-! ## The two calls -/

/-- From the mounts on, the calls differ in what they dispose of. -/
def remove (o : Outcomes) (sb : Sandbox) (d : RestoreMetadata.Disposal) (h : Host) :
    Host × Option TearDownError :=
  if !o.cleanupMounts then (h, some .mounts)
  else
    match h.removeBaseDir o sb.baseDir with
    | none => (h, some .baseDir)
    | some h' => ((h'.dispose o d).unregister sb.id, none)

/-- `delete` of the sandboxer. -/
def delete (o : Outcomes) (id : String) (h : Host) : Host × Option TearDownError :=
  match h.find id with
  | none => (h.unregister id, none)
  | some sb =>
    match stop o sb with
    | some e => (h, some e)
    | none =>
      if !o.cgroup2 && !o.removeCgroups then (h, some .cgroups)
      else remove o sb sb.restore.onDelete h

/-- `destroy_sandbox` of the service. An error of the removal of the cgroups is logged. -/
def destroy (o : Outcomes) (id : String) (h : Host) : Host × Option TearDownError :=
  match h.find id with
  | none => (h, some (.notFound id))
  | some sb =>
    match stop o sb with
    | some e => (h, some e)
    | none => remove o sb sb.restore.onDestroy h

/-! ## What should be given back -/

/-- The template that the record says may have been taken for good: a record without a type is one
of them. -/
def mayHaveConsumed (r : RestoreMetadata) : Option String :=
  match r.templateSnapshotType with
  | none => r.templateId
  | some _ => r.consumption

def continuation (r : RestoreMetadata) : Option String :=
  match r.templateSnapshotType with
  | some .continuation => r.templateId
  | _ => none

/-- After the end of `sb`, its directory is gone, its reference is not counted any more, and what it
consumed is not on disk. -/
structure Released (sb : Sandbox) (before after : Host) : Prop where
  baseDir : sb.baseDir ∉ after.baseDirs
  reference : ∀ id, sb.restore.reference = some id → ∀ p, before.pool = some p →
    ∃ p', after.pool = some p' ∧ p'.inUseCount = p.inUseCount.decr id
  consumed : ∀ id, mayHaveConsumed sb.restore = some id → ∀ d ∈ after.templates,
    d.dir = ["environment", id] ∨ d.dir = ["warmfork", id] → d.consumed = false
  continuation : ∀ id, continuation sb.restore = some id → ∀ e ∈ after.continuations,
    e.templateId ≠ id

/-- No directory of the id has a consumed marker, or both calls find the one that has it: a pool is
configured, what is only logged does not fail, and a directory of the other kind, which is looked
for later, has none. -/
def Cleaned (o : Outcomes) (h : Host) (id : String) : Prop :=
  (∀ d ∈ h.templates, d.dir = ["environment", id] ∨ d.dir = ["warmfork", id] →
    d.consumed = false) ∨
  (h.pool ≠ none ∧ o.statMarker = true ∧ o.removeConsumed = true ∧
    (["environment", id] ∈ h.templates.map (·.dir) →
      ∀ d ∈ h.templates, d.dir = ["warmfork", id] → d.consumed = false))

/-- No entry of the continuation store is of the template. -/
def NoEntry (h : Host) (id : String) : Prop := ∀ e ∈ h.continuations, e.templateId ≠ id

/-- There is none, or `delete` finds one and the others of the template are in its directory. -/
def EntryDeleted (o : Outcomes) (h : Host) (id : String) : Prop :=
  NoEntry h id ∨
  (h.pool ≠ none ∧ h.continuationStore = true ∧ o.removeEntry = true ∧
    ∃ e ∈ h.continuations, o.reads e = true ∧ e.templateId = id ∧
      ∀ e' ∈ h.continuations, e'.templateId = id → e'.identity = e.identity)

/-- There is an entry of the continuation store that `delete` removes. -/
def Deletes (o : Outcomes) (sb : Sandbox) (h : Host) : Prop :=
  h.pool ≠ none ∧ h.continuationStore = true ∧ o.removeEntry = true ∧
    ∃ id, continuation sb.restore = some id ∧
      ∃ e ∈ h.continuations, o.reads e = true ∧ e.templateId = id

variable {o : Outcomes} {sb : Sandbox} {h h' : Host} {id : String}

/-! ## The disposals -/

/-- The records for which the two calls differ. -/
theorem disposals (r : RestoreMetadata) :
    (∃ id, continuation r = some id ∧ r.onDelete = .deleteContinuation id ∧ r.onDestroy = .keep) ∨
      continuation r = none ∧ r.onDelete = r.onDestroy := by
  unfold continuation onDelete onDestroy disposal
  rcases r.templateId with _ | id <;> rcases r.templateSnapshotType with _ | kind
  · exact Or.inr ⟨rfl, rfl⟩
  · rcases kind with _ | _ | _ <;> exact Or.inr ⟨rfl, rfl⟩
  · exact Or.inr ⟨rfl, rfl⟩
  · rcases kind with _ | _ | _
    · exact Or.inr ⟨rfl, rfl⟩
    · exact Or.inr ⟨rfl, rfl⟩
    · exact Or.inl ⟨id, rfl, rfl, rfl⟩

theorem onDelete_reference {r : RestoreMetadata} (hr : r.reference = some id) :
    r.onDelete = .deref id := by
  unfold reference at hr
  unfold onDelete disposal
  split at hr
  · rename_i hid hkind
    split at hr
    · rename_i hmode
      rw [hid, hkind, ← Option.some.inj hr]
      exact if_pos hmode
    · cases hr
  · rename_i hid hkind
    split at hr
    · rename_i hmode
      rw [hid, hkind, hmode, ← Option.some.inj hr]
    · cases hr
  · cases hr

theorem onDelete_consumed {r : RestoreMetadata} (hr : mayHaveConsumed r = some id) :
    r.onDelete = .cleanupConsumed id := by
  unfold mayHaveConsumed consumption at hr
  unfold onDelete disposal
  split at hr
  · rename_i hkind
    rw [hr, hkind]
  · split at hr
    · rename_i hid hkind
      split at hr
      · cases hr
      · rename_i hmode
        rw [hid, hkind, ← Option.some.inj hr]
        rcases hlease : r.leaseMode with _ | _ | _
        · rfl
        · exact absurd hlease hmode
        · rfl
    · cases hr

/-! ## What the steps leave -/

def Host.withoutDir (h : Host) (dir : String) : Host :=
  { h with baseDirs := h.baseDirs.filter (· ≠ dir) }

theorem removeBaseDir_eq {dir : String} (hr : h.removeBaseDir o dir = some h') :
    h' = h.withoutDir dir := by
  unfold Host.removeBaseDir at hr
  split at hr
  · split at hr
    · exact (Option.some.inj hr).symm
    · cases hr
  · rename_i hmem
    have hsame : h.baseDirs.filter (· ≠ dir) = h.baseDirs := by
      refine List.filter_eq_self.mpr ?_
      intro d hd
      simpa using fun heq : d = dir => hmem (heq ▸ hd)
    rw [← Option.some.inj hr, Host.withoutDir, hsame]

theorem remove_ok {d : Disposal} (hok : (remove o sb d h).2 = none) :
    (remove o sb d h).1 = ((h.withoutDir sb.baseDir).dispose o d).unregister sb.id := by
  unfold remove at hok ⊢
  split at hok
  · cases hok
  · rename_i hmounts
    rw [if_neg hmounts]
    split at hok
    · cases hok
    · rename_i h' hremoved
      rw [removeBaseDir_eq hremoved]

theorem delete_ok (hfind : h.find id = some sb) (hok : (delete o id h).2 = none) :
    (delete o id h).1 =
      ((h.withoutDir sb.baseDir).dispose o sb.restore.onDelete).unregister sb.id := by
  rcases hstop : stop o sb with _ | e
  · simp only [delete, hfind, hstop] at hok ⊢
    split at hok
    · cases hok
    · rename_i hcgroups
      rw [if_neg hcgroups]
      exact remove_ok hok
  · simp only [delete, hfind, hstop] at hok
    cases hok

theorem destroy_ok (hfind : h.find id = some sb) (hok : (destroy o id h).2 = none) :
    (destroy o id h).1 =
      ((h.withoutDir sb.baseDir).dispose o sb.restore.onDestroy).unregister sb.id := by
  rcases hstop : stop o sb with _ | e
  · simp only [destroy, hfind, hstop] at hok ⊢
    exact remove_ok hok
  · simp only [destroy, hfind, hstop] at hok
    cases hok

/-- Nothing that is given back is a directory of a sandbox. -/
theorem dispose_baseDirs (d : Disposal) :
    (h.dispose o d).baseDirs = h.baseDirs := by
  unfold Host.dispose
  rcases h.pool with _ | pool
  · rfl
  · cases d with
    | keep => rfl
    | deref id =>
      dsimp only [Host.deref, Host.gcDirs]
      split
      · split <;> rfl
      · rfl
    | cleanupConsumed id =>
      dsimp only [Host.cleanupConsumed]
      split
      · split <;> rfl
      · rfl
    | deleteContinuation id =>
      dsimp only [Host.deleteByTemplateId]
      split
      · split
        · rfl
        · split <;> rfl
      · rfl

theorem dispose_deref {p : TemplatePool} (hpool : h.pool = some p) :
    ∃ p', (h.dispose o (.deref id)).pool = some p' ∧ p'.inUseCount = p.inUseCount.decr id := by
  unfold Host.dispose
  rw [hpool]
  exact ⟨_, rfl, collected_derefCall.inUseCount⟩

theorem dispose_keep : h.dispose o .keep = h := by
  unfold Host.dispose
  split <;> rfl

/-- The directory that is found is the one of an Environment template, if there is one. -/
theorem findTemplateDir_eq {d : TemplateDir} (hd : d ∈ h.templates)
    (hdir : d.dir = ["environment", id] ∨ d.dir = ["warmfork", id]) :
    h.findTemplateDir id = d.dir ↔
      (["environment", id] ∈ h.templates.map (·.dir) → d.dir ≠ ["warmfork", id]) := by
  have hmem : d.dir ∈ h.templates.map (·.dir) := List.mem_map_of_mem hd
  unfold Host.findTemplateDir
  simp only [List.contains_iff_mem]
  rcases hdir with henv | hwf
  · rw [henv] at hmem ⊢
    simp [hmem]
  · rw [hwf] at hmem ⊢
    by_cases henv : ["environment", id] ∈ h.templates.map (·.dir)
    · simp [henv]
    · simp [henv, hmem]

/-- A directory goes if it is found, has the marker, and everything goes well. -/
theorem mem_dispose_consumed {d : TemplateDir} :
    d ∈ (h.dispose o (.cleanupConsumed id)).templates ↔
      d ∈ h.templates ∧ ¬ (h.pool ≠ none ∧ o.statMarker = true ∧ o.removeConsumed = true ∧
        h.findTemplateDir id = d.dir ∧
        ∃ d' ∈ h.templates, d'.dir = h.findTemplateDir id ∧ d'.consumed = true) := by
  unfold Host.dispose
  rcases hpool : h.pool with _ | p
  · simp
  · have hmarker : (h.templates.any fun d => d.dir == h.findTemplateDir id && d.consumed) = true ↔
        ∃ d' ∈ h.templates, d'.dir = h.findTemplateDir id ∧ d'.consumed = true := by simp
    dsimp only [Host.cleanupConsumed]
    rw [← hmarker]
    split
    · rename_i hcond
      obtain ⟨hstat, hany⟩ := (Bool.and_eq_true _ _).mp hcond
      split
      · rename_i hremove
        simp only [List.mem_filter, decide_eq_true_eq]
        constructor
        · exact fun ⟨hd, hne⟩ => ⟨hd, fun hgone => hne hgone.2.2.2.1.symm⟩
        · exact fun ⟨hd, hnot⟩ => ⟨hd, fun heq => hnot ⟨nofun, hstat, hremove, heq.symm, hany⟩⟩
      · rename_i hremove
        exact (and_iff_left fun hgone => hremove hgone.2.2.1).symm
    · rename_i hcond
      refine (and_iff_left fun hgone => hcond ?_).symm
      rw [hgone.2.1, hgone.2.2.2.2]
      rfl

theorem dispose_consumed_iff :
    (∀ d ∈ (h.dispose o (.cleanupConsumed id)).templates,
      d.dir = ["environment", id] ∨ d.dir = ["warmfork", id] → d.consumed = false) ↔
    Cleaned o h id := by
  have hsubset : ∀ d ∈ (h.dispose o (.cleanupConsumed id)).templates, d ∈ h.templates :=
    fun d hd => (mem_dispose_consumed.mp hd).1
  have hstays : ∀ d ∈ h.templates, d.consumed = true →
      ¬ (h.pool ≠ none ∧ o.statMarker = true ∧ o.removeConsumed = true ∧
        h.findTemplateDir id = d.dir) → d ∈ (h.dispose o (.cleanupConsumed id)).templates := by
    intro d hd hconsumed hnot
    refine mem_dispose_consumed.mpr ⟨hd, ?_⟩
    rintro ⟨hpool, hstat, hremove, hdir, -⟩
    exact hnot ⟨hpool, hstat, hremove, hdir⟩
  constructor
  · intro hgone
    by_cases hnone : ∀ d ∈ h.templates, d.dir = ["environment", id] ∨ d.dir = ["warmfork", id] →
        d.consumed = false
    · exact Or.inl hnone
    · have hremoved : ∀ d ∈ h.templates, d.dir = ["environment", id] ∨ d.dir = ["warmfork", id] →
          d.consumed = true → h.pool ≠ none ∧ o.statMarker = true ∧ o.removeConsumed = true ∧
            h.findTemplateDir id = d.dir := by
        intro d hd hdir hconsumed
        by_contra hnot
        simp [hgone d (hstays d hd hconsumed hnot) hdir] at hconsumed
      push Not at hnone
      obtain ⟨d, hd, hdir, hconsumed⟩ := hnone
      obtain ⟨hpool, hstat, hremove, -⟩ := hremoved d hd hdir (by simpa using hconsumed)
      refine Or.inr ⟨hpool, hstat, hremove, fun henv d' hd' hwf => ?_⟩
      by_contra hcons'
      have hfound := (hremoved d' hd' (Or.inr hwf) (by simpa using hcons')).2.2.2
      exact (findTemplateDir_eq hd' (Or.inr hwf)).mp hfound henv hwf
  · rintro (hnone | ⟨hpool, hstat, hremove, hwf⟩) d hd hdir
    · exact hnone d (hsubset d hd) hdir
    · by_contra hconsumed
      have hconsumed : d.consumed = true := by simpa using hconsumed
      obtain ⟨hin, hnot⟩ := mem_dispose_consumed.mp hd
      have hfound : h.findTemplateDir id = d.dir := by
        refine (findTemplateDir_eq hin hdir).mpr fun henv hwf' => ?_
        simp [hwf henv d hin hwf'] at hconsumed
      exact hnot ⟨hpool, hstat, hremove, hfound, d, hin, hfound.symm, hconsumed⟩

/-- The disposal removes the directory of one entry that names the template, if it is configured to,
finds one and the removal succeeds. -/
theorem dispose_continuation_cases :
    (h.dispose o (.deleteContinuation id) = h ∧
      ¬ (h.pool ≠ none ∧ h.continuationStore = true ∧ o.removeEntry = true ∧
        ∃ e ∈ h.continuations, o.reads e = true ∧ e.templateId = id)) ∨
    (h.pool ≠ none ∧ h.continuationStore = true ∧ o.removeEntry = true ∧
      ∃ e ∈ h.continuations, (o.reads e = true ∧ e.templateId = id) ∧
        (h.dispose o (.deleteContinuation id)).continuations =
          h.continuations.filter (·.identity ≠ e.identity)) := by
  unfold Host.dispose Host.deleteByTemplateId
  rcases h.pool with _ | pool
  · simp
  by_cases hready : h.continuationStore = true ∧ o.removeEntry = true
  · obtain ⟨hstore, hremove⟩ := hready
    rcases hfind : h.continuations.find? fun e => o.reads e && e.templateId == id with _ | e
    · left
      refine ⟨by simp [hstore, hfind], ?_⟩
      rintro ⟨-, -, -, e, he, hprop⟩
      exact List.find?_eq_none.mp hfind e he (by simpa using hprop)
    · right
      have hprop := List.find?_some hfind
      simp only [Bool.and_eq_true, beq_iff_eq] at hprop
      exact ⟨by simp, hstore, hremove, e, List.mem_of_find?_eq_some hfind, hprop,
        by simp [hstore, hremove, hfind]⟩
  · left
    refine ⟨?_, fun h => hready ⟨h.2.1, h.2.2.1⟩⟩
    by_cases hstore : h.continuationStore = true
    · have hremove : o.removeEntry = false := by simpa [hstore] using hready
      simp only [hstore, hremove, if_true, Bool.false_eq_true, if_false]
      split <;> rfl
    · exact if_neg hstore

theorem dispose_continuation_iff :
    NoEntry (h.dispose o (.deleteContinuation id)) id ↔ EntryDeleted o h id := by
  rcases @dispose_continuation_cases o h id with
    ⟨heq, hnone⟩ | ⟨hpool, hstore, hremove, e, hmem, ⟨hreads, hid⟩, hleft⟩
  · rw [heq]
    refine ⟨Or.inl, fun h => h.resolve_right ?_⟩
    rintro ⟨hpool, hstore, hremove, e, he, hreads, hid, -⟩
    exact hnone ⟨hpool, hstore, hremove, e, he, hreads, hid⟩
  · unfold NoEntry
    rw [hleft]
    constructor
    · intro hgone
      refine Or.inr ⟨hpool, hstore, hremove, e, hmem, hreads, hid, fun e' he' hid' => ?_⟩
      by_contra hne
      exact hgone e' (by simpa using ⟨he', hne⟩) hid'
    · intro hdeleted e' he' hid'
      obtain ⟨-, -, -, e₀, -, -, -, hall⟩ := hdeleted.resolve_left fun hnone => hnone e hmem hid
      obtain ⟨he', hne⟩ := List.mem_filter.mp he'
      exact of_decide_eq_true hne ((hall e' he' hid').trans (hall e hmem hid).symm)

/-! ## Both calls -/

/-- A call that removes the directory and disposes of what the record says has given everything
back exactly if nothing that was consumed is left. -/
theorem released_iff {d : Disposal} (href : ∀ id, sb.restore.reference = some id → d = .deref id)
    (hcons : ∀ id, mayHaveConsumed sb.restore = some id → d = .cleanupConsumed id) :
    Released sb h (((h.withoutDir sb.baseDir).dispose o d).unregister sb.id) ↔
      (∀ id, mayHaveConsumed sb.restore = some id → Cleaned o h id) ∧
      ∀ id, continuation sb.restore = some id →
        NoEntry ((h.withoutDir sb.baseDir).dispose o d) id := by
  constructor
  · intro hreleased
    refine ⟨fun id hid => ?_, hreleased.continuation⟩
    have hconsumed := hreleased.consumed id hid
    rw [hcons id hid] at hconsumed
    exact (dispose_consumed_iff (h := h.withoutDir sb.baseDir)).mp hconsumed
  · rintro ⟨hcleaned, hentries⟩
    refine ⟨?_, ?_, ?_, hentries⟩
    · change sb.baseDir ∉ ((h.withoutDir sb.baseDir).dispose o d).baseDirs
      rw [dispose_baseDirs]
      simp [Host.withoutDir]
    · intro id hid p hp
      rw [href id hid]
      exact dispose_deref (h := h.withoutDir sb.baseDir) hp
    · intro id hid
      rw [hcons id hid]
      exact (dispose_consumed_iff (h := h.withoutDir sb.baseDir)).mpr (hcleaned id hid)

theorem deletes_iff (hid : continuation sb.restore = some id) :
    ((h.withoutDir sb.baseDir).dispose o (.deleteContinuation id)).unregister sb.id =
      (h.withoutDir sb.baseDir).unregister sb.id ↔ ¬ Deletes o sb h := by
  rcases @dispose_continuation_cases o (h.withoutDir sb.baseDir) id with
    ⟨heq, hnone⟩ | ⟨hpool, hstore, hremove, e, he, hprop, hleft⟩
  · refine iff_of_true (by rw [heq]) ?_
    rintro ⟨hpool, hstore, hremove, _, hid', hentry⟩
    obtain rfl := Option.some.inj (hid'.symm.trans hid)
    exact hnone ⟨hpool, hstore, hremove, hentry⟩
  · refine iff_of_false (fun hsame => ?_) fun hnot =>
      hnot ⟨hpool, hstore, hremove, id, hid, e, he, hprop⟩
    have hentries := congrArg Host.continuations hsame
    simp only [Host.unregister, hleft] at hentries
    rw [← hentries] at he
    simp at he

/-- The two calls leave the same host exactly if `delete` does not remove an entry of the
continuation store. Each gives back what the sandbox took exactly if no consumed template is left,
and no entry of the continuation it was restored from, which only `delete` removes. -/
theorem delete_destroy_iff (hfind : h.find id = some sb) (hdel : (delete o id h).2 = none)
    (hdes : (destroy o id h).2 = none) :
    ((delete o id h).1 = (destroy o id h).1 ↔ ¬ Deletes o sb h) ∧
      (Released sb h (delete o id h).1 ↔
        (∀ tid, mayHaveConsumed sb.restore = some tid → Cleaned o h tid) ∧
          ∀ tid, continuation sb.restore = some tid → EntryDeleted o h tid) ∧
      (Released sb h (destroy o id h).1 ↔
        (∀ tid, mayHaveConsumed sb.restore = some tid → Cleaned o h tid) ∧
          ∀ tid, continuation sb.restore = some tid → NoEntry h tid) := by
  rw [delete_ok hfind hdel, destroy_ok hfind hdes]
  have hdelete := @released_iff o sb h _ (fun _ => onDelete_reference) fun _ => onDelete_consumed
  rcases disposals sb.restore with ⟨id', hid', hdel', hdes'⟩ | ⟨hnone, hsame⟩
  · have hother : ∀ {d}, sb.restore.onDelete = d → d = .deleteContinuation id' := fun h =>
      h.symm.trans hdel'
    have hdestroy := @released_iff o sb h .keep
      (fun _ hid => nomatch hother (onDelete_reference hid))
      fun _ hid => nomatch hother (onDelete_consumed hid)
    rw [hdel'] at hdelete
    rw [hdel', hdes', hdelete, hdestroy, dispose_keep]
    refine ⟨deletes_iff hid', and_congr_right fun _ => forall₂_congr fun tid htid => ?_, Iff.rfl⟩
    obtain rfl := Option.some.inj (htid.symm.trans hid')
    exact dispose_continuation_iff (h := h.withoutDir sb.baseDir)
  · have hvoid : ∀ {P : String → Prop}, ∀ tid, continuation sb.restore = some tid → P tid := by
      intro P tid htid
      rw [hnone] at htid
      cases htid
    rw [← hsame, hdelete]
    refine ⟨iff_of_true rfl ?_, and_congr_right fun _ => iff_of_true hvoid hvoid,
      and_congr_right fun _ => iff_of_true hvoid hvoid⟩
    rintro ⟨-, -, -, tid, htid, -⟩
    exact hvoid (P := fun _ => False) tid htid

/-- A host on which `sb` is the one sandbox. It has consumed a template of the pool and an entry of
the continuation store. -/
def oneSandbox (pool : Option TemplatePool) (sb : Sandbox) : Host where
  pool := pool
  continuationStore := true
  templates := [⟨["warmfork", "t"], true⟩]
  continuations := [⟨⟨"pod", 0⟩, "t", true⟩]
  baseDirs := [sb.baseDir]
  sandboxes := [sb]

/-- A running sandbox that was restored from `t`. -/
def restored (kind : SnapshotType) : Sandbox where
  id := "sb"
  baseDir := "/run/kuasar/sb"
  status := .running 7
  restore := { templateId := some "t", templateSnapshotType := some kind }

def emptyPool : TemplatePool := ⟨.empty, .empty, .empty, .empty, 1, 1, 1, .exclusive, true⟩

/-- A WarmFork restore that consumed its template. -/
theorem delete_destroy_warmFork :
    (delete {} "sb" (oneSandbox (some emptyPool) (restored .warmFork))).1 =
        (destroy {} "sb" (oneSandbox (some emptyPool) (restored .warmFork))).1 ∧
      Released (restored .warmFork) (oneSandbox (some emptyPool) (restored .warmFork))
        (destroy {} "sb" (oneSandbox (some emptyPool) (restored .warmFork))).1 := by
  obtain ⟨hiff, -, hdestroy⟩ := @delete_destroy_iff {} (restored .warmFork)
    (oneSandbox (some emptyPool) (restored .warmFork)) "sb" rfl rfl rfl
  refine ⟨hiff.mpr ?_, hdestroy.mpr ⟨?_, nofun⟩⟩
  · rintro ⟨-, -, -, id, hid, -⟩
    cases hid
  · intro id hid
    obtain rfl : "t" = id := Option.some.inj hid
    exact Or.inr ⟨nofun, rfl, rfl, by decide⟩

/-- A continuation: `delete` removes the entry, `destroy` leaves it consumed. And a host that has
no pool: both leave the template that was consumed. -/
theorem destroy_leaves_continuation :
    ((delete {} "sb" (oneSandbox (some emptyPool) (restored .continuation))).2 = none ∧
      (destroy {} "sb" (oneSandbox (some emptyPool) (restored .continuation))).2 = none ∧
      (delete {} "sb" (oneSandbox (some emptyPool) (restored .continuation))).1.continuations = [] ∧
      (destroy {} "sb" (oneSandbox (some emptyPool) (restored .continuation))).1.continuations =
        [⟨⟨"pod", 0⟩, "t", true⟩]) ∧
    (delete {} "sb" (oneSandbox none (restored .warmFork))).2 = none ∧
      (delete {} "sb" (oneSandbox none (restored .warmFork))).1.templates =
        [⟨["warmfork", "t"], true⟩] := by
  exact ⟨⟨rfl, rfl, rfl, rfl⟩, rfl, rfl⟩

end Kuasar.TearDown

import Kuasar.Sandbox.TemplateStart

/-!
# Sandbox.StartBalance — every start gives back what it took, but for two slips

`start_balanced_iff` says exactly when a template-backed start leaves the pool as it
owes to. Two things stand in the way besides the water-level collection: a start that
accepts WarmFork templates only and finds an Environment template returns without
giving its restore pin back, and a template that was taken out by id goes back to the
end of its queue.

The proof follows a start: what the acquisition takes (by kind of template and mode of
the pool), what the steps between leave alone, what the end of the lease gives back.
-/

namespace Kuasar.TemplateStart

open TemplatePool StartCall

variable {cfg : Config} {o : Outcomes} {before : RestoreMetadata} {p p' : TemplatePool}
  {t : PooledTemplate} {key : TemplateKey}

/-! ## Acquisition -/

theorem acquireForRestore_none (h : p.latest key = none) : p.acquireForRestore key = none := by
  simp [acquireForRestore, h]

variable {id : String} {completes : Bool} {res : Result}
  {rest : TemplatePool → PooledTemplate → Result}

theorem acquireByIdForRestore_none (h : p.findById id = none) :
    p.acquireByIdForRestore id = none := by
  simp [acquireByIdForRestore, h]

theorem acquireForRestoreCall_environment (h : p.latest key = some t)
    (hkind : t.snapshotType = .environment) (marker : Bool) :
    acquireForRestoreCall p key marker = (p.pin t.id, some t) := by
  simp [acquireForRestoreCall, acquireForRestore, h, hkind, acquireWith, take,
    peekLatestForRestore, Take.pops, pin]

theorem acquireForRestoreCall_shared (h : p.latest key = some t)
    (hkind : t.snapshotType = .warmFork) (hmode : p.leaseMode = .shared) (marker : Bool) :
    acquireForRestoreCall p key marker = (p.refTemplate t.id, some t) := by
  simp [acquireForRestoreCall, acquireForRestore, h, hkind, hmode, acquireWith, take,
    peekWithRef, takeRef, Take.pops, refTemplate]

theorem acquireForRestoreCall_exclusive (h : p.latest key = some t) (hkey : t.key = key)
    (hkind : t.snapshotType = .warmFork) (hmode : p.leaseMode = .exclusive) :
    ∃ p', p.take (.acquire key) = some (t, p') ∧ p'.pushBack t = p ∧
      p'.leaseMode = p.leaseMode ∧ ∀ marker, acquireForRestoreCall p key marker =
        if marker then (p', some t) else (p, none) := by
  obtain ⟨p', htake, hback⟩ := take_acquire h hkey
  have hmode' : p'.leaseMode = p.leaseMode := by
    rw [← hback]
    rfl
  refine ⟨p', htake, hback, hmode', ?_⟩
  intro marker
  simp only [acquireForRestoreCall, acquireForRestore, h, Option.map_some, hkind, hmode,
    reduceCtorEq, if_false, acquireWith, htake, Take.pops, Bool.true_and, hback]
  cases marker <;> rfl

theorem acquireForRestoreCall_none (h : p.acquireForRestore key = none) (marker : Bool) :
    acquireForRestoreCall p key marker = (p, none) := by
  simp [acquireForRestoreCall, h]

/-- What an acquisition of `t` does, by its kind and the mode of the pool. -/
structure Acquires (p : TemplatePool) (t : PooledTemplate)
    (call : Bool → TemplatePool × Option PooledTemplate) : Prop where
  environment : t.snapshotType = .environment → ∀ marker, call marker = (p.pin t.id, some t)
  shared : t.snapshotType = .warmFork → p.leaseMode = .shared →
    ∀ marker, call marker = (p.refTemplate t.id, some t)
  exclusive : t.snapshotType = .warmFork → p.leaseMode = .exclusive →
    ∃ p', Without p t p' ∧ p'.leaseMode = p.leaseMode ∧
      ∀ marker, call marker = if marker then (p', some t) else (p'.pushBack t, none)
  continuation : t.snapshotType = .continuation → ∀ marker, call marker = (p, none)

theorem acquireForRestoreCall_acquires (hw : p.WellFiled) (h : p.latest key = some t) :
    Acquires p t (acquireForRestoreCall p key) where
  environment := acquireForRestoreCall_environment h
  shared := acquireForRestoreCall_shared h
  exclusive hkind hmode := by
    obtain ⟨p', htake, hback, hmode', hcall⟩ := acquireForRestoreCall_exclusive h
      (hw.key key t (List.mem_of_getLast? h)) hkind hmode
    exact ⟨p', take_acquire_without hw htake, hmode', hback ▸ hcall⟩
  continuation hkind := acquireForRestoreCall_none (by simp [acquireForRestore, h, hkind])

/-- Waiting changes nothing about an acquisition that goes through or that cannot. -/
theorem acquireOrWait_some (h : acquireForRestoreCall p key o.marker = (p', some t)) :
    acquireOrWait o p key = (p', some t) := by
  simp [acquireOrWait, h]

theorem waitAndAcquireForRestore_of_fails (markers : List Bool)
    (h : ∀ marker, acquireForRestoreCall p key marker = (p, none)) :
    waitAndAcquireForRestore key markers p = (p, none) := by
  induction markers with
  | nil => rfl
  | cons marker markers ih =>
    rw [waitAndAcquireForRestore, h]
    simp only [ih, ite_self]

theorem acquireOrWait_none (h : ∀ marker, acquireForRestoreCall p key marker = (p, none)) :
    acquireOrWait o p key = (p, none) := by
  simp only [acquireOrWait, h, waitAndAcquireForRestore_of_fails _ h, ite_self]

/-- An exclusive acquisition by key, however often its marker fails, takes the template
out or leaves the pool as it was. -/
theorem waitAndAcquireForRestore_exclusive (markers : List Bool)
    (h : ∀ marker, acquireForRestoreCall p key marker =
      if marker then (p', some t) else (p, none)) :
    waitAndAcquireForRestore key markers p = (p', some t) ∨
      waitAndAcquireForRestore key markers p = (p, none) := by
  induction markers with
  | nil => exact Or.inr rfl
  | cons marker markers ih =>
    rw [waitAndAcquireForRestore, h]
    cases marker with
    | true => exact Or.inl rfl
    | false =>
      simp only [Bool.false_eq_true, if_false]
      split
      · exact Or.inr rfl
      · exact ih

theorem acquireOrWait_exclusive
    (h : ∀ marker, acquireForRestoreCall p key marker =
      if marker then (p', some t) else (p, none)) :
    acquireOrWait o p key = (p', some t) ∨ acquireOrWait o p key = (p, none) := by
  unfold acquireOrWait
  rw [h]
  cases o.marker with
  | true => exact Or.inl rfl
  | false =>
    simp only [Bool.false_eq_true, if_false]
    split
    · exact waitAndAcquireForRestore_exclusive _ h
    · exact Or.inr rfl

/-- What is acquired by key is the latest of the key, however long that takes. -/
theorem acquireOrWait_latest (hkey : ∀ t ∈ p.available.queue key, t.key = key)
    (h : acquireOrWait o p key = (p', some t)) : p.latest key = some t := by
  cases hl : p.latest key with
  | none =>
    rw [acquireOrWait_none (acquireForRestoreCall_none (acquireForRestore_none hl))] at h
    cases h
  | some u =>
    cases hkind : u.snapshotType with
    | environment =>
      rw [acquireOrWait_some (acquireForRestoreCall_environment hl hkind o.marker)] at h
      cases h
      rfl
    | warmFork =>
      cases hmode : p.leaseMode with
      | shared =>
        rw [acquireOrWait_some (acquireForRestoreCall_shared hl hkind hmode o.marker)] at h
        cases h
        rfl
      | exclusive =>
        obtain ⟨q, -, -, -, hcall⟩ := acquireForRestoreCall_exclusive hl
          (hkey u (List.mem_of_getLast? hl)) hkind hmode
        rcases acquireOrWait_exclusive (o := o) hcall with hacq | hacq
        · rw [hacq] at h
          cases h
          rfl
        · rw [hacq] at h
          cases h
    | continuation =>
      have hnone : p.acquireForRestore key = none := by simp [acquireForRestore, hl, hkind]
      rw [acquireOrWait_none (acquireForRestoreCall_none hnone)] at h
      cases h

theorem acquireByIdForRestoreCall_none (h : p.acquireByIdForRestore id = none) (marker : Bool) :
    acquireByIdForRestoreCall p id marker = (p, none) := by
  simp [acquireByIdForRestoreCall, h]

theorem acquireByIdForRestoreCall_acquires (hw : p.WellFiled) (h : p.findById id = some t) :
    Acquires p t (acquireByIdForRestoreCall p id) where
  environment hkind marker := by
    simp [acquireByIdForRestoreCall, acquireByIdForRestore, h, hkind, acquireWith, take,
      peekByIdForRestore, Take.pops, pin]
  shared hkind hmode marker := by
    simp [acquireByIdForRestoreCall, acquireByIdForRestore, h, hkind, hmode, acquireWith, take,
      peekByIdWithRef, takeRef, Take.pops, refTemplate]
  exclusive hkind hmode := by
    obtain ⟨p', htake, hwithout⟩ := acquireByIdPop_spec hw h
    have hmode' : p'.leaseMode = p.leaseMode := by
      obtain ⟨q, -, rfl⟩ := popped_eq_some htake
      rfl
    refine ⟨p', hwithout, hmode', ?_⟩
    intro marker
    simp only [acquireByIdForRestoreCall, acquireByIdForRestore, h, Option.map_some, hkind, hmode,
      reduceCtorEq, if_false, acquireWith, htake, Take.pops, Bool.true_and]
    cases marker <;> rfl
  continuation hkind := acquireByIdForRestoreCall_none (by simp [acquireByIdForRestore, h, hkind])

/-! ## WarmFork -/

/-- A start that holds a WarmFork lease ends it: with `complete` and a record of the
lease if every remaining step succeeds, else with `fail`. -/
structure Ends (o : Outcomes) (p' : TemplatePool) (t : PooledTemplate) (completes : Bool)
    (res : Result) : Prop where
  ok : completes = true → ∃ r, res = (p'.leaseComplete o.removed t, .ok r) ∧
    r.templateId = some t.id ∧ r.templateSnapshotType = some .warmFork ∧
      r.leaseMode = some p'.leaseMode
  error : completes = false → ∃ e, res = (p'.leaseFail o.removed t, .error e)

/-- A check before the rest of a start that holds a lease. -/
theorem Ends.checked {check : Bool} {e : StartError}
    (h : check = true → Ends o p' t completes res) :
    Ends o p' t (check && completes)
      (if !check then (p'.leaseFail o.removed t, .error e) else res) := by
  cases hc : check with
  | true => simpa using h hc
  | false => exact ⟨by simp, fun _ => ⟨e, rfl⟩⟩

/-- A shared lease: the reference stays with the sandbox, or is dropped. -/
theorem Ends.balanced_shared (h : Ends o (p.refTemplate t.id) t completes res)
    (hkind : t.snapshotType = .warmFork) (hmode : p.leaseMode = .shared) :
    Balanced p res ↔
      (completes = false → p.inUseCount.entry t.id = none → ¬ p.Collects o.removed) := by
  have hlease : (p.refTemplate t.id).leaseKind t = some .sharedRef := by
    simp [leaseKind, hkind, refTemplate, hmode]
  cases hc : completes with
  | true =>
    obtain ⟨r, rfl, hid, htype, hlm⟩ := h.ok hc
    have hrec : withRecorded p r = p.refTemplate t.id := by
      have hm : (p.refTemplate t.id).leaseMode = .shared := hmode
      rw [hm] at hlm
      simp [withRecorded, RestoreMetadata.reference, hid, htype, hlm]
    simp only [Balanced, hrec, leaseComplete, hlease]
    exact ⟨fun _ h => absurd h (by simp), fun _ => .refl _⟩
  | false =>
    obtain ⟨e, rfl⟩ := h.error hc
    simp only [Balanced, leaseFail, hlease, derefCall_refTemplate]
    by_cases hnone : p.inUseCount.entry t.id = none
    · rw [if_pos hnone, same_gcIfNeeded_iff]
      exact ⟨fun h _ _ => h, fun h => h trivial hnone⟩
    · rw [if_neg hnone]
      exact ⟨fun _ _ h => absurd h hnone, fun _ => .refl p⟩

/-- An exclusive lease: the template is gone with the sandbox, or goes to the end of
its queue. -/
theorem Ends.balanced_exclusive (h : Ends o p' t completes res) (hw : p.WellFiled)
    (ht : t ∈ p.available.all) (hp' : Without p t p') (hkind : t.snapshotType = .warmFork)
    (hmode : p'.leaseMode = .exclusive) :
    Balanced p res ↔ (completes = false → p.latest t.key = some t) := by
  have hlease : p'.leaseKind t = some .exclusive := by
    simp [leaseKind, hkind, hmode]
  cases hc : completes with
  | true =>
    obtain ⟨r, rfl, hid, htype, hlm⟩ := h.ok hc
    have hrec : withRecorded p r = p.dequeue t.id := by
      rw [hmode] at hlm
      simp [withRecorded, RestoreMetadata.reference, RestoreMetadata.consumption, hid, htype, hlm]
    simp only [Balanced, hrec, leaseComplete, hlease]
    exact ⟨fun _ h => absurd h (by simp), fun _ => hp'.same_dequeue⟩
  | false =>
    obtain ⟨e, rfl⟩ := h.error hc
    simp only [Balanced, leaseFail, hlease, hp'.same_pushBack_iff hw ht]
    exact ⟨fun h _ => h, fun h => h trivial⟩

/-- A WarmFork restore does not touch the pool on its way. -/
theorem startFromSnapshot_warmFork (cfg : Config) (o : Outcomes) (before : RestoreMetadata)
    (p : TemplatePool) (hkind : t.snapshotType = .warmFork) (leaseMode : TemplateLeaseMode) :
    ((o.vmUp && o.settled) = true →
      startFromSnapshot cfg o before p t leaseMode =
        (p, .ok (record cfg before p t leaseMode))) ∧
    ((o.vmUp && o.settled) = false →
      ∃ e, startFromSnapshot cfg o before p t leaseMode = (p, .error e)) := by
  have hpin : (record cfg before p t leaseMode).envNonCopyPinned = none := by
    simp [RestoreMetadata.envNonCopyPinned, record, hkind]
  simp only [startFromSnapshot, hpin, pinExtra, rollback, Outcomes.vmUp, Outcomes.settled]
  cases o.sandboxFound <;> cases o.preStart <;> cases o.prepareNetwork <;> cases o.restore <;>
    cases o.addToCgroup <;> cases o.postStart <;> cases o.dump <;> simp

theorem restoreFromWarmForkTemplate_ends (hkind : t.snapshotType = .warmFork)
    (henabled : cfg.enableWarmforkRestore = true) (hmode : p'.leaseMode = p.leaseMode) :
    Ends o p' t (warmForkCompletes cfg o t)
      (restoreFromWarmForkTemplate cfg o before p' t p.leaseMode) := by
  obtain ⟨hok, herr⟩ := startFromSnapshot_warmFork cfg o before p' hkind p.leaseMode
  unfold warmForkCompletes restoreFromWarmForkTemplate
  rw [henabled, Bool.true_and, Bool.and_assoc, Bool.and_assoc, Bool.and_assoc, ← Option.not_isSome]
  refine Ends.checked fun _ => Ends.checked fun _ => ?_
  cases o.annotations with
  | none => exact ⟨by simp, fun _ => ⟨_, rfl⟩⟩
  | some names =>
    dsimp only
    rw [← Bool.not_or]
    refine Ends.checked fun _ => ⟨?_, ?_⟩
    · intro hc
      rw [hok hc]
      exact ⟨_, rfl, rfl, by simp [record, hkind], by simp [record, hmode]⟩
    · intro hc
      obtain ⟨e, he⟩ := herr hc
      rw [he]
      exact ⟨e, rfl⟩

theorem serviceRestore_ends :
    Ends o p t (serviceCompletes o) (serviceRestore o before p t) := by
  unfold serviceCompletes serviceRestore
  rw [Bool.and_assoc, Bool.and_assoc]
  refine Ends.checked fun _ => Ends.checked fun _ => Ends.checked fun _ => ?_
  cases o.dump with
  | false => exact ⟨by simp, fun _ => ⟨_, rfl⟩⟩
  | true => exact ⟨fun _ => ⟨_, rfl, rfl, rfl, rfl⟩, by simp⟩

/-! ## Environment -/

/-- The extra pin of a restore that leaves its memory on disk. -/
theorem record_envNonCopyPinned (hkind : t.snapshotType = .environment)
    (leaseMode : TemplateLeaseMode) :
    (record cfg before p t leaseMode).envNonCopyPinned =
      if cfg.defaultMemoryRestoreMode ≠ .copy then some t.id else none := by
  simp only [RestoreMetadata.envNonCopyPinned, RestoreMetadata.nonCopy, record, hkind]
  cases cfg.defaultMemoryRestoreMode <;> simp

theorem withRecorded_environment (hkind : t.snapshotType = .environment)
    (leaseMode : TemplateLeaseMode) (q : TemplatePool) :
    withRecorded p (record cfg before q t leaseMode) =
      if cfg.defaultMemoryRestoreMode ≠ .copy then p.refTemplate t.id else p := by
  simp only [withRecorded, RestoreMetadata.reference, RestoreMetadata.consumption,
    RestoreMetadata.nonCopy, record, hkind]
  cases cfg.defaultMemoryRestoreMode <;> simp

/-- The pool while an Environment restore runs, with its extra pin. -/
def extraPinned (cfg : Config) (p : TemplatePool) (t : PooledTemplate) : TemplatePool :=
  if cfg.defaultMemoryRestoreMode ≠ .copy then p.refTemplate t.id else p

/-- The pool after the extra pin was given back. -/
def rolledBack (cfg : Config) (o : Outcomes) (p : TemplatePool) (t : PooledTemplate) :
    TemplatePool :=
  if cfg.defaultMemoryRestoreMode ≠ .copy ∧ p.inUseCount.entry t.id = none then
    p.gcIfNeeded o.removedOnRollback
  else p

theorem startFromSnapshot_environment (cfg : Config) (o : Outcomes) (before : RestoreMetadata)
    (p : TemplatePool) (hkind : t.snapshotType = .environment) :
    (o.vmUp = false → ∃ e, startFromSnapshot cfg o before p t .shared = (p, .error e)) ∧
    (o.vmUp = true → o.settled = false →
      ∃ e, startFromSnapshot cfg o before p t .shared = (rolledBack cfg o p t, .error e)) ∧
    (o.vmUp = true → o.settled = true →
      startFromSnapshot cfg o before p t .shared =
        (extraPinned cfg p t, .ok (record cfg before p t .shared))) := by
  have hroll : rollback o (extraPinned cfg p t)
      (record cfg before p t .shared).envNonCopyPinned = rolledBack cfg o p t := by
    rw [record_envNonCopyPinned hkind]
    by_cases hcopy : cfg.defaultMemoryRestoreMode ≠ .copy
    · simp only [rollback, extraPinned, rolledBack, hcopy, if_true, derefCall_refTemplate, true_and,
        not_false_eq_true, ne_eq]
    · simp only [rollback, extraPinned, rolledBack, hcopy, if_false, false_and]
  have hpin : pinExtra p (record cfg before p t .shared).envNonCopyPinned =
      extraPinned cfg p t := by
    rw [record_envNonCopyPinned hkind, extraPinned]
    split <;> rfl
  simp only [startFromSnapshot, hpin, hroll, Outcomes.vmUp, Outcomes.settled]
  cases o.sandboxFound <;> cases o.preStart <;> cases o.prepareNetwork <;> cases o.restore <;>
    cases o.addToCgroup <;> cases o.postStart <;> cases o.dump <;> simp

theorem balanced_endRestore (q : TemplatePool) :
    Same q ((q.pin t.id).endRestoreCall o.removed t.id) ↔
      (q.inFlightRestores.entry t.id = none → ¬ q.Collects o.removed) := by
  rw [endRestoreCall_pin]
  by_cases hnone : q.inFlightRestores.entry t.id = none
  · rw [if_pos hnone, same_gcIfNeeded_iff]
    exact ⟨fun h _ => h, fun h => h hnone⟩
  · rw [if_neg hnone]
    exact ⟨fun _ h => absurd h hnone, fun _ => .refl q⟩

theorem endRestoreCall_queue_sublist (q : TemplatePool) (id : String) (key : TemplateKey) :
    ((q.endRestoreCall o.removed id).available.queue key).Sublist (q.available.queue key) := by
  unfold endRestoreCall
  split
  · exact gcIfNeeded_queue_sublist key
  · exact List.Sublist.refl _

/-- What the collection of a roll back removed is not back at the end of the lease. -/
theorem not_same_of_collects {rm : String → Bool} (h : (p.pin t.id).Collects rm) :
    ¬ Same p (((p.pin t.id).gcIfNeeded rm).endRestoreCall o.removed t.id) := by
  intro hsame
  obtain ⟨k, hne⟩ := gcIfNeeded_changes h
  have hsub : ((p.pin t.id).gcIfNeeded rm).available.queue k |>.Sublist (p.available.queue k) :=
    gcIfNeeded_queue_sublist k
  have hlen := (endRestoreCall_queue_sublist (o := o) ((p.pin t.id).gcIfNeeded rm) t.id k).length_le
  rw [hsame.queue k] at hlen
  exact hne (hsub.eq_of_length_le hlen)

/-- A restore that was rolled back: two collections may run, one for the extra pin and one
for the restore pin. -/
theorem rolledBack_balanced_iff :
    Same p ((rolledBack cfg o (p.pin t.id) t).endRestoreCall o.removed t.id) ↔
      (cfg.defaultMemoryRestoreMode ≠ .copy → p.inUseCount.entry t.id = none →
        ¬ (p.pin t.id).Collects o.removedOnRollback) ∧
      (p.inFlightRestores.entry t.id = none → ¬ p.Collects o.removed) := by
  unfold rolledBack
  by_cases hex : cfg.defaultMemoryRestoreMode ≠ .copy ∧ p.inUseCount.entry t.id = none
  · have hex' : cfg.defaultMemoryRestoreMode ≠ .copy ∧
        (p.pin t.id).inUseCount.entry t.id = none := hex
    rw [if_pos hex']
    by_cases hcol : (p.pin t.id).Collects o.removedOnRollback
    · refine iff_of_false (not_same_of_collects hcol) ?_
      intro h
      exact h.1 hex.1 hex.2 hcol
    · rw [gcIfNeeded_eq_self hcol, balanced_endRestore]
      simp [hcol]
  · have hex' : ¬ (cfg.defaultMemoryRestoreMode ≠ .copy ∧
        (p.pin t.id).inUseCount.entry t.id = none) := hex
    rw [if_neg hex', balanced_endRestore]
    rw [not_and] at hex
    exact ⟨fun h => ⟨fun hc hn => absurd hn (hex hc), h⟩, fun h => h.2⟩

theorem environment_balanced_iff (hkind : t.snapshotType = .environment) :
    Balanced p (if !o.snapshotFiles then
        ((p.pin t.id).leaseFail o.removed t, .error .snapshotFilesMissing)
      else endLease o t (startFromSnapshot cfg o before (p.pin t.id) t .shared)) ↔
      EnvironmentQuiet cfg o p t := by
  have hfail : ∀ q : TemplatePool, q.leaseFail o.removed t = q.endRestoreCall o.removed t.id := by
    intro q
    simp [leaseFail, leaseKind, hkind]
  have hcomplete : ∀ q : TemplatePool,
      q.leaseComplete o.removed t = q.endRestoreCall o.removed t.id := by
    intro q
    simp [leaseComplete, leaseKind, hkind]
  obtain ⟨hdown, hroll, hup⟩ := startFromSnapshot_environment cfg o before (p.pin t.id) hkind
  unfold EnvironmentQuiet
  cases hsnap : o.snapshotFiles with
  | false =>
    simp only [Bool.not_false, if_true, Balanced, hfail, balanced_endRestore]
    simp
  | true =>
    simp only [Bool.not_true, Bool.false_eq_true, if_false]
    cases hvm : o.vmUp with
    | false =>
      -- the restore failed before the extra pin
      obtain ⟨e, he⟩ := hdown hvm
      simp only [he, endLease, Balanced, hfail, balanced_endRestore]
      simp
    | true =>
      cases hset : o.settled with
      | false =>
        obtain ⟨e, he⟩ := hroll hvm hset
        simp only [he, endLease, Balanced, hfail, rolledBack_balanced_iff]
        simp
      | true =>
        -- the sandbox runs: its extra pin stays
        simp only [hup hvm hset, endLease, Balanced, hcomplete, withRecorded_environment hkind]
        have hpin : extraPinned cfg (p.pin t.id) t = (extraPinned cfg p t).pin t.id := by
          unfold extraPinned
          split <;> rfl
        have hentry : (extraPinned cfg p t).inFlightRestores = p.inFlightRestores := by
          unfold extraPinned
          split <;> rfl
        rw [hpin]
        have hiff := balanced_endRestore (o := o) (t := t) (extraPinned cfg p t)
        rw [hentry] at hiff
        refine hiff.trans ?_
        simp [extraPinned]

/-! ## The starts -/

theorem not_same_pin (id : String) : ¬ Same p (p.pin id) := by
  intro h
  have hcount := congrArg (fun c => Tally.count c id) h.inFlightRestores
  simp [pin, Tally.count_incr] at hcount

/-- A start that takes a template it accepts, by id or by key, and holds WarmFork
leases only. -/
def leaseOf (acquired : TemplatePool × Option PooledTemplate)
    (rest : TemplatePool → PooledTemplate → Result) : Result :=
  match acquired with
  | (p', none) => (p', .error .miss)
  | (p', some t) => if t.snapshotType ≠ .warmFork then (p', .error .kindMismatch) else rest p' t

/-- The pin on an Environment template is not given back. -/
theorem leaseOf_environment (hkind : t.snapshotType = .environment) :
    ¬ Balanced p (leaseOf (p.pin t.id, some t) rest) := by
  simp only [leaseOf, hkind, ne_eq, reduceCtorEq, not_false_eq_true, if_true, Balanced,
    not_same_pin]

/-- A shared WarmFork lease ends as the rest of the start says. -/
theorem leaseOf_shared (hkind : t.snapshotType = .warmFork) (hmode : p.leaseMode = .shared)
    (hends : Ends o (p.refTemplate t.id) t completes (rest (p.refTemplate t.id) t)) :
    Balanced p (leaseOf (p.refTemplate t.id, some t) rest) ↔
      (completes = false → p.inUseCount.entry t.id = none → ¬ p.Collects o.removed) := by
  simp only [leaseOf, hkind, ne_eq, not_true_eq_false, if_false]
  exact hends.balanced_shared hkind hmode

/-- Every restriction of the condition applies. -/
theorem Acquires.balanced_iff {call : Bool → TemplatePool × Option PooledTemplate}
    (h : Acquires p t call) (hw : p.WellFiled) (ht : t ∈ p.available.all) (completes : Bool)
    (hends : t.snapshotType = .warmFork → ∀ p', p'.leaseMode = p.leaseMode →
      Ends o p' t completes (rest p' t)) :
    Balanced p (leaseOf (call o.marker) rest) ↔
      t.snapshotType ≠ .environment ∧
      (t.snapshotType = .warmFork → p.leaseMode = .shared → completes = false →
        p.inUseCount.entry t.id = none → ¬ p.Collects o.removed) ∧
      (t.snapshotType = .warmFork → p.leaseMode = .exclusive →
        (o.marker && completes) = false → p.latest t.key = some t) := by
  cases hkind : t.snapshotType with
  | environment =>
    rw [h.environment hkind]
    simp [leaseOf_environment hkind]
  | warmFork =>
    cases hmode : p.leaseMode with
    | shared =>
      rw [h.shared hkind hmode, leaseOf_shared hkind hmode (hends hkind _ rfl)]
      simp
    | exclusive =>
      obtain ⟨p', hp', hmode', hcall⟩ := h.exclusive hkind hmode
      rw [hcall]
      cases hm : o.marker with
      | true =>
        simp only [if_true, leaseOf, hkind, ne_eq, not_true_eq_false, if_false]
        rw [(hends hkind p' hmode').balanced_exclusive hw ht hp' hkind (hmode'.trans hmode)]
        simp
      | false =>
        simp only [Bool.false_eq_true, if_false, leaseOf, Balanced, hp'.same_pushBack_iff hw ht]
        simp
  | continuation =>
    rw [h.continuation hkind]
    simp [leaseOf, Balanced, Same.refl]

theorem enabled_and_completes :
    (cfg.enableWarmforkRestore && warmForkCompletes cfg o t) = warmForkCompletes cfg o t := by
  unfold warmForkCompletes
  cases cfg.enableWarmforkRestore <;> simp

theorem startWithTemplateId_balanced_iff (hw : p.WellFiled) (tid : String) (k : Option String) :
    Balanced p (startWithTemplateId cfg o before p tid k) ↔ Clean cfg o p (.templateId tid k) := by
  have heq : startWithTemplateId cfg o before p tid k =
      leaseOf (acquireByIdForRestoreCall p tid o.marker) fun p' t =>
        if !keyMatches t k then (p'.leaseFail o.removed t, .error .keyMismatch)
        else if !cfg.enableWarmforkRestore then (p'.leaseFail o.removed t, .error .notEnabled)
        else restoreFromWarmForkTemplate cfg o before p' t p.leaseMode := by
    rfl
  rw [heq]
  cases hf : p.findById tid with
  | none =>
    rw [acquireByIdForRestoreCall_none (acquireByIdForRestore_none hf)]
    simp [leaseOf, Balanced, Same.refl, Clean, found, hf]
  | some t =>
    rw [(acquireByIdForRestoreCall_acquires hw hf).balanced_iff hw (mem_of_findById hf).1
      (keyMatches t k && warmForkCompletes cfg o t)]
    · simp [Clean, found, admitted, warmForkOnly, byId,
        completes, keyOk, hf]
    · intro hkind p' hmode
      rw [← enabled_and_completes]
      exact Ends.checked fun _ => Ends.checked fun henabled =>
        restoreFromWarmForkTemplate_ends hkind henabled hmode

/-- The service, once it has looked at the sandbox: by id. -/
theorem serviceRun_byId_balanced_iff (before : RestoreMetadata) (hw : p.WellFiled)
    (tid : String) (k : Option String) (hadm : o.sandboxFound = true ∧ o.created = true) :
    Balanced p (leaseOf (acquireByIdForRestoreCall p tid o.marker) fun p' t =>
        if !keyMatches t k then (p'.leaseFail o.removed t, .error .keyMismatch)
        else serviceRestore o before p' t) ↔ Clean cfg o p (.serviceRun k (some tid)) := by
  cases hf : p.findById tid with
  | none =>
    rw [acquireByIdForRestoreCall_none (acquireByIdForRestore_none hf)]
    simp [leaseOf, Balanced, Same.refl, Clean, found, hf]
  | some t =>
    rw [(acquireByIdForRestoreCall_acquires hw hf).balanced_iff hw (mem_of_findById hf).1
      (keyMatches t k && serviceCompletes o)]
    · simp [Clean, found, admitted, warmForkOnly, byId,
        completes, keyOk, hf, hadm]
    · intro _ p' _
      exact Ends.checked fun _ => serviceRestore_ends

/-- The service, once it has looked at the sandbox: by key. -/
theorem serviceRun_byKey_balanced_iff (before : RestoreMetadata) (hw : p.WellFiled) (k : String)
    (hadm : o.sandboxFound = true ∧ o.created = true) :
    Balanced p (leaseOf (acquireForRestoreCall p ⟨k⟩ o.marker) fun p' t =>
        serviceRestore o before p' t) ↔ Clean cfg o p (.serviceRun (some k) none) := by
  cases hl : p.latest ⟨k⟩ with
  | none =>
    rw [acquireForRestoreCall_none (acquireForRestore_none hl)]
    simp [leaseOf, Balanced, Same.refl, Clean, found, hl]
  | some t =>
    -- an exclusive template comes from the back of its queue and goes back there
    have hkey := hw.key ⟨k⟩ t (List.mem_of_getLast? hl)
    rw [(acquireForRestoreCall_acquires hw hl).balanced_iff hw (mem_of_latest hl)
      (serviceCompletes o)]
    · simp [Clean, found, admitted, warmForkOnly, byId,
        completes, keyOk, hl, hadm, hkey]
    · intro _ p' _
      exact serviceRestore_ends

theorem restoreSandboxWarmFork_balanced_iff (hw : p.WellFiled) (k tid : Option String) :
    Balanced p (restoreSandboxWarmFork o before p k tid) ↔ Clean cfg o p (.serviceRun k tid) := by
  cases hfound : o.sandboxFound with
  | false =>
    simp [restoreSandboxWarmFork, hfound, Balanced, Same.refl, Clean, admitted]
  | true =>
    cases hcreated : o.created with
    | false =>
      simp [restoreSandboxWarmFork, hfound, hcreated, Balanced, Same.refl, Clean,
        admitted]
    | true =>
      have hadm : o.sandboxFound = true ∧ o.created = true := ⟨hfound, hcreated⟩
      cases tid with
      | some tid =>
        rw [← serviceRun_byId_balanced_iff before hw tid k hadm]
        simp only [restoreSandboxWarmFork, hfound, hcreated, Bool.not_true, Bool.false_eq_true,
          if_false]
        rfl
      | none =>
        cases k with
        | none =>
          simp [restoreSandboxWarmFork, hfound, hcreated, Balanced, Same.refl, Clean,
            found]
        | some k =>
          rw [← serviceRun_byKey_balanced_iff before hw k hadm]
          simp only [restoreSandboxWarmFork, hfound, hcreated, Bool.not_true, Bool.false_eq_true,
            if_false]
          rfl

theorem startWithTemplateKey_balanced_iff (hw : p.WellFiled) (key : TemplateKey) :
    Balanced p (startWithTemplateKey cfg o before p key) ↔ Clean cfg o p (.templateKey key) := by
  cases hl : p.latest key with
  | none =>
    have hnone := acquireForRestoreCall_none (acquireForRestore_none hl)
    simp [startWithTemplateKey, acquireOrWait_none hnone, Balanced, Same.refl, Clean,
      found, hl]
  | some t =>
    have hacquires := acquireForRestoreCall_acquires hw hl
    cases hkind : t.snapshotType with
    | environment =>
      have hacq := acquireOrWait_some (o := o) (hacquires.environment hkind o.marker)
      have hrun : startWithTemplateKey cfg o before p key =
          if !o.snapshotFiles then
            ((p.pin t.id).leaseFail o.removed t, .error .snapshotFilesMissing)
          else endLease o t (startFromSnapshot cfg o before (p.pin t.id) t .shared) := by
        simp only [startWithTemplateKey, hacq, hkind]
      rw [hrun, environment_balanced_iff hkind]
      simp [Clean, admitted, found, warmForkOnly, hl, hkind]
    | warmFork =>
      have hends : ∀ {p'}, acquireOrWait o p key = (p', some t) → p'.leaseMode = p.leaseMode →
          Ends o p' t (warmForkCompletes cfg o t) (startWithTemplateKey cfg o before p key) := by
        intro p' hacq hmode
        simp only [startWithTemplateKey, hacq, hkind]
        rw [← enabled_and_completes]
        exact Ends.checked fun henabled => restoreFromWarmForkTemplate_ends hkind henabled hmode
      cases hmode : p.leaseMode with
      | shared =>
        have hacq := acquireOrWait_some (o := o) (hacquires.shared hkind hmode o.marker)
        rw [(hends hacq rfl).balanced_shared hkind hmode]
        simp [Clean, admitted, found, completes, keyOk,
          hl, hkind, hmode]
      | exclusive =>
        -- out of the back of its queue and back there: nothing can go wrong
        have hkey := hw.key key t (List.mem_of_getLast? hl)
        obtain ⟨p', htake, -, hmode', hcall⟩ :=
          acquireForRestoreCall_exclusive hl hkey hkind hmode
        have hclean : Clean cfg o p (.templateKey key) := by
          simp [Clean, admitted, found, byId, hl, hkind, hmode]
        refine iff_of_true ?_ hclean
        rcases acquireOrWait_exclusive (o := o) hcall with hacq | hacq
        · rw [(hends hacq hmode').balanced_exclusive hw (mem_of_latest hl)
            (take_acquire_without hw htake) hkind (hmode'.trans hmode), hkey]
          exact fun _ => hl
        · simp [startWithTemplateKey, hacq, Balanced, Same.refl]
    | continuation =>
      simp [startWithTemplateKey, acquireOrWait_none (hacquires.continuation hkind), Balanced,
        Same.refl, Clean, found, hl, hkind]

/-- **Balance.** A template-backed start leaves the pool as it owes to, whichever of
its steps fail, if and only if the condition `Clean` on the pool it finds holds. -/
theorem start_balanced_iff (cfg : Config) (o : Outcomes) (before : RestoreMetadata)
    (p : TemplatePool) (hw : p.WellFiled) (c : StartCall) :
    Balanced p (start cfg o before p c) ↔ Clean cfg o p c := by
  cases c with
  | templateKey key => exact startWithTemplateKey_balanced_iff hw key
  | templateId tid key => exact startWithTemplateId_balanced_iff hw tid key
  | serviceRun key tid => exact restoreSandboxWarmFork_balanced_iff hw key tid

/-! ## A pin that is never given back -/

/-- An Environment template. -/
def baseImage : PooledTemplate := ⟨"t1", ⟨"k"⟩, .environment, 0, "", 0, [], [], [], none, none, []⟩

/-- A pool with one Environment template and nothing in flight. -/
def basePool : TemplatePool :=
  ⟨Queues.empty.pushBack baseImage.key baseImage, .empty, .empty, .empty, 4, 4, 10, .shared, true⟩

/-- Every step succeeds. -/
def smooth : Outcomes :=
  ⟨true, [], true, some [], true, true, true, true, true, true, true, true, fun _ => true,
    fun _ => true⟩

/-- WarmFork restores are enabled, memory is copied. -/
def copyConfig : Config := ⟨true, .copy⟩

theorem basePool_wellFiled : basePool.WellFiled := by
  refine ⟨?_, by decide⟩
  intro key t ht
  rw [basePool, Queues.queue_pushBack] at ht
  split at ht
  · rename_i hkey
    have hmem : t = baseImage := by simpa [Queues.queue, Queues.empty, Queues.queueEntry] using ht
    rw [hmem, hkey]
  · simp [Queues.queue, Queues.empty, Queues.queueEntry] at ht

theorem start_balanced_iff_basePool :
    Balanced basePool (start copyConfig smooth {} basePool (.templateKey ⟨"k"⟩)) ↔
      Clean copyConfig smooth basePool (.templateKey ⟨"k"⟩) :=
  start_balanced_iff copyConfig smooth {} basePool basePool_wellFiled (.templateKey ⟨"k"⟩)

/-- A start by the id of an Environment template is refused, and its restore pin stays
for good. -/
theorem template_id_leaks_pin :
    (start copyConfig smooth {} basePool (.templateId "t1" none)).2 = .error .kindMismatch ∧
      basePool.inFlightRestores.count "t1" = 0 ∧
      (start copyConfig smooth {} basePool (.templateId "t1" none)).1.inFlightRestores.count "t1" =
        1 ∧
      ¬ Balanced basePool (start copyConfig smooth {} basePool (.templateId "t1" none)) := by
  refine ⟨rfl, rfl, rfl, ?_⟩
  exact not_same_pin "t1"

end Kuasar.TemplateStart

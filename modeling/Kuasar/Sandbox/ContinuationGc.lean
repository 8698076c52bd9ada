import Kuasar.Tla.Tasks
import Kuasar.Template.Types

/-!
# Sandbox.ContinuationGc — the collector of consumed continuations

A pass of the collector first asks every sandbox in the map which template it records,
then walks the store and removes the consumed entries whose template nobody recorded.
Meanwhile sandboxes are restored from continuations: by the sandboxer, which creates the
marker first and publishes the template id on the sandbox afterwards, or by the service,
which does both under the sandbox's lock. Each lock-held section and each file system
call is a step.

An entry is in use while a restore from it is in flight and while the sandbox restored
from it is alive. The collector spares the entries that were recorded when it asked. So
it is safe in the runs in which no entry comes into use behind the back of a pass, and
sandboxes are only asked when they record what they use (`collector_safe`). A pass that
asks a sandbox between the marker and the publication removes the entry under the
restore (`collector_races_publish`).
-/

namespace Kuasar.ContinuationGc

open Tla

structure Entry where
  id : String
  marker : Bool
  deriving DecidableEq, Repr

/-- A sandbox; `record` is the template id of its restore metadata. Kept for the proof:
the template the running VM was restored from. -/
structure Sandbox where
  inMap : Bool
  locked : Bool
  record : Option String
  live : Option String
  deriving DecidableEq, Repr

/-- The sandboxes, the entries, and how many tasks hold the read lock of the map. -/
structure Shared where
  sandboxes : List Sandbox
  entries : List Entry
  readers : ℕ

namespace Shared

/-- Sandbox `i` is now `sb`. -/
def setSandbox (s : Shared) (i : ℕ) (sb : Sandbox) : Shared :=
  { s with sandboxes := s.sandboxes.set i sb }

/-- The marker of entry `x` is created or removed. -/
def setMarker (s : Shared) (x : String) (b : Bool) : Shared :=
  { s with entries := s.entries.map fun e => if e.id = x then { e with marker := b } else e }

/-- Sandbox `i` is in the map. -/
def Registered (s : Shared) (i : ℕ) : Prop := ∃ sb, s.sandboxes[i]? = some sb ∧ sb.inMap = true

/-- The directory of entry `x` is removed. -/
def removeEntry (s : Shared) (x : String) : Shared :=
  { s with entries := s.entries.filter fun e => e.id ≠ x }

end Shared

/-- Where a task stands. A restore carries its sandbox and its template: first the
sandboxer's, then the service's, whose names begin with `svc`. A pass carries the
sandboxes it has yet to ask and the ids it was told. -/
inductive Pc where
  | idle
  | created (i : ℕ) (x : String)
  | leased (i : ℕ) (x : String)
  | published (i : ℕ) (x : String)
  | looked (i : ℕ) (x : String)
  | starting (i : ℕ) (x : String)
  | recorded (i : ℕ) (x : String)
  | failing (i : ℕ) (x : String)
  | svcLocked (i : ℕ)
  | svcCreated (i : ℕ) (x : String)
  | svcLeased (i : ℕ) (x : String)
  | svcRecorded (i : ℕ) (x : String)
  | svcFailing (i : ℕ) (x : String)
  | reading (unread : List ℕ) (active : List String)
  | scanning (active : List String)
  | condemned (active : List String) (x : String) (h : x ∉ active)

/-- What a step does that the collector depends on: an entry comes into use, a pass
begins, a pass asks a sandbox. -/
inductive Effect where
  | quiet
  | creates (i : ℕ) (x : String)
  | begins
  | asks (i : ℕ)

inductive Step : Effect → Shared → Pc → Shared → Pc → Prop where
  -- start_with_continuation_snapshot: ContinuationStore::acquire
  | create {s} (i : ℕ) {x} (h : x ∈ s.entries.map (·.id)) :
      Step (.creates i x) s .idle (s.setMarker x true) (.created i x)
  | sync {s i x} : Step .quiet s (.created i x) s (.leased i x)
  | syncErr {s i x} : Step .quiet s (.created i x) s .idle
  -- the template id is published if the sandbox is in the map
  | publish {s i x sb} (hi : s.sandboxes[i]? = some sb) (h : sb.locked = false) :
      Step .quiet s (.leased i x) (s.setSandbox i { sb with record := some x }) (.published i x)
  | publishNone {s i x} (h : ¬ s.Registered i) : Step .quiet s (.leased i x) s (.published i x)
  -- snapshot files are missing: clear_template_restore_state
  | filesMissing {s i x sb} (hi : s.sandboxes[i]? = some sb) (h : sb.locked = false) :
      Step .quiet s (.published i x) (s.setSandbox i { sb with record := none }) (.failing i x)
  | filesMissingNone {s i x} (h : ¬ s.Registered i) :
      Step .quiet s (.published i x) s (.failing i x)
  -- start_from_snapshot: the sandbox is found in the map, then locked
  | lookup {s i x} (h : s.Registered i) : Step .quiet s (.published i x) s (.looked i x)
  | notFound {s i x} (h : ¬ s.Registered i) : Step .quiet s (.published i x) s (.failing i x)
  | lock {s i x sb} (hi : s.sandboxes[i]? = some sb) (h : sb.locked = false) :
      Step .quiet s (.looked i x) (s.setSandbox i { sb with locked := true }) (.starting i x)
  | preFail {s i x sb} (hi : s.sandboxes[i]? = some sb) :
      Step .quiet s (.starting i x) (s.setSandbox i { sb with locked := false }) (.failing i x)
  | record {s i x sb} (hi : s.sandboxes[i]? = some sb) :
      Step .quiet s (.starting i x) (s.setSandbox i { sb with record := some x }) (.recorded i x)
  -- the restore or a step after it fails, or the sandbox runs
  | abort {s i x sb} (hi : s.sandboxes[i]? = some sb) :
      Step .quiet s (.recorded i x) (s.setSandbox i { sb with record := none, locked := false })
        (.failing i x)
  | finish {s i x sb} (hi : s.sandboxes[i]? = some sb) :
      Step .quiet s (.recorded i x)
        (s.setSandbox i { sb with live := some x, locked := false }) .idle
  -- ContinuationLease::fail
  | leaseFail {s i x} : Step .quiet s (.failing i x) (s.setMarker x false) .idle
  | leaseFailErr {s i x} : Step .quiet s (.failing i x) s .idle
  -- restore_sandbox_continuation: the lock is held to the end
  | svcLock {s i sb} (hi : s.sandboxes[i]? = some sb)
      (h : sb.locked = false) (hcreated : sb.live = none) :
      Step .quiet s .idle (s.setSandbox i { sb with locked := true }) (.svcLocked i)
  | svcGiveUp {s i sb} (hi : s.sandboxes[i]? = some sb) :
      Step .quiet s (.svcLocked i) (s.setSandbox i { sb with locked := false }) .idle
  | svcCreate {s i x} (h : x ∈ s.entries.map (·.id)) :
      Step (.creates i x) s (.svcLocked i) (s.setMarker x true) (.svcCreated i x)
  | svcSync {s i x} : Step .quiet s (.svcCreated i x) s (.svcLeased i x)
  | svcSyncErr {s i x sb} (hi : s.sandboxes[i]? = some sb) :
      Step .quiet s (.svcCreated i x) (s.setSandbox i { sb with locked := false }) .idle
  | svcRecord {s i x sb} (hi : s.sandboxes[i]? = some sb) :
      Step .quiet s (.svcLeased i x)
        (s.setSandbox i { sb with record := some x }) (.svcRecorded i x)
  | svcAbort {s i x sb} (hi : s.sandboxes[i]? = some sb) :
      Step .quiet s (.svcRecorded i x) (s.setSandbox i { sb with record := none }) (.svcFailing i x)
  | svcFail {s i x sb} (hi : s.sandboxes[i]? = some sb) :
      Step .quiet s (.svcFailing i x)
        ((s.setMarker x false).setSandbox i { sb with locked := false }) .idle
  | svcFailErr {s i x sb} (hi : s.sandboxes[i]? = some sb) :
      Step .quiet s (.svcFailing i x) (s.setSandbox i { sb with locked := false }) .idle
  | svcFinish {s i x sb} (hi : s.sandboxes[i]? = some sb) :
      Step .quiet s (.svcRecorded i x) (s.setSandbox i { sb with live := some x, locked := false })
        .idle
  -- start_continuation_gc_task: the ids recorded on the sandboxes in the map
  | begin {s unread} (h : ∀ i, i ∈ unread ↔ s.Registered i) :
      Step .begins s .idle { s with readers := s.readers + 1 } (.reading unread [])
  | ask {s i unread active sb} (hi : s.sandboxes[i]? = some sb) (h : sb.locked = false) :
      Step (.asks i) s (.reading (i :: unread) active) s
        (.reading unread (sb.record.toList ++ active))
  | asked {s active} :
      Step .quiet s (.reading [] active) { s with readers := s.readers - 1 } (.scanning active)
  -- gc_orphaned_consumed
  | condemn {s active e} (he : e ∈ s.entries) (hm : e.marker = true) (h : e.id ∉ active) :
      Step .quiet s (.scanning active) s (.condemned active e.id h)
  | collect {s active x h} :
      Step .quiet s (.condemned active x h) (s.removeEntry x) (.scanning active)
  | collectErr {s active x h} : Step .quiet s (.condemned active x h) s (.scanning active)
  | passDone {s active} : Step .quiet s (.scanning active) s .idle
  -- the VM of a sandbox is stopped or exits
  | stop {s l i sb} (hi : s.sandboxes[i]? = some sb) :
      Step .quiet s l (s.setSandbox i { sb with live := none }) l
  -- other starts of a sandbox write or clear its record
  | rewrite {s i sb} (r : Option String) (hi : s.sandboxes[i]? = some sb) (h : sb.locked = false) :
      Step .quiet s .idle (s.setSandbox i { sb with record := r }) .idle
  -- sandboxes come and go, which takes the write lock of the map
  | add {s} (h : s.readers = 0) :
      Step .quiet s .idle
        { s with sandboxes := s.sandboxes ++ [⟨true, false, none, none⟩] } .idle
  | remove {s i sb} (hi : s.sandboxes[i]? = some sb) (h : s.readers = 0) :
      Step .quiet s .idle (s.setSandbox i { sb with inMap := false }) .idle
  -- delete_by_template_id of a sandbox that is deleted, the admin's delete, a new snapshot
  | deleteEntry {s} (x : String) : Step .quiet s .idle (s.removeEntry x) .idle
  | saveEntry {s} (x : String) :
      Step .quiet s .idle { s with entries := ⟨x, false⟩ :: s.entries } .idle

/-! ## The system -/

/-- The state of the system. -/
abbrev St := Sys Shared Pc

/-- Task `k` takes a step. -/
def next : ℕ × Effect → Action St := fun l => TaskStep (Step l.2) l.1

/-- No task has started; nothing holds for the sandboxes and entries there are, except that
nobody reads the map. -/
def Init : StatePred St := fun s => s.shared.readers = 0 ∧ ∀ l ∈ s.tasks, l = .idle

namespace Pc

/-- The restore a task has in flight: from the marker until the lease has completed or
failed. -/
def restores : Pc → Option (ℕ × String)
  | .created i x => some (i, x)
  | .leased i x => some (i, x)
  | .published i x => some (i, x)
  | .looked i x => some (i, x)
  | .starting i x => some (i, x)
  | .recorded i x => some (i, x)
  | .failing i x => some (i, x)
  | .svcCreated i x => some (i, x)
  | .svcLeased i x => some (i, x)
  | .svcRecorded i x => some (i, x)
  | .svcFailing i x => some (i, x)
  | _ => none

/-- The pass a task is in: the sandboxes it has yet to ask and the ids it was told. -/
def pass : Pc → Option (List ℕ × List String)
  | .reading unread active => some (unread, active)
  | .scanning active => some ([], active)
  | .condemned active _ _ => some ([], active)
  | _ => none

end Pc

/-- Sandbox `i` uses entry `x`: a restore is in flight, or the VM restored from it is
alive. -/
def Uses (s : St) (i : ℕ) (x : String) : Prop :=
  (∃ (k : ℕ) (l : Pc), s.tasks[k]? = some l ∧ l.restores = some (i, x)) ∨
    ∃ sb, s.shared.sandboxes[i]? = some sb ∧ sb.live = some x

/-- An entry comes into use only while every pass under way has its sandbox yet to ask; a
pass begins only while every sandbox that uses an entry is in the map, and asks a sandbox
only while it records what it uses. -/
def Recorded : ℕ × Effect → StatePred St
  | (_, .creates i _), s => ∀ l ∈ s.tasks, ∀ pass, l.pass = some pass → i ∈ pass.1
  | (_, .begins), s => ∀ i x, Uses s i x → s.shared.Registered i
  | (_, .asks i), s => ∀ x sb, Uses s i x → s.shared.sandboxes[i]? = some sb → sb.record = some x
  | (_, .quiet), _ => True

/-- No entry the collector is about to remove is in use. -/
def CollectorSafe : StatePred St := fun s =>
  ∀ (k : ℕ) (active : List String) (x : String) (h : x ∉ active),
    s.tasks[k]? = some (.condemned active x h) → ∀ i, ¬ Uses s i x

/-! ## What a step does -/

variable {e : Effect} {s s' : Shared} {l l' : Pc} {i : ℕ} {x : String}

/-- A restore a task has in flight was so before, or begins with the marker. -/
theorem Step.restores (h : Step e s l s' l') (hx : l'.restores = some (i, x)) :
    l.restores = some (i, x) ∨ e = .creates i x := by
  cases h with
  | create | svcCreate =>
    obtain ⟨rfl, rfl⟩ := hx
    exact Or.inr rfl
  | syncErr | finish | leaseFail | leaseFailErr | svcSyncErr | svcFail | svcFailErr | svcFinish =>
    simp [Pc.restores] at hx
  | _ => exact Or.inl hx

/-- After a write to sandbox `n`, a VM that is alive was so before or is the one written. -/
theorem setSandbox_live {n : ℕ} {sb : Sandbox}
    (h : ∃ o, (s.setSandbox n sb).sandboxes[i]? = some o ∧ o.live = some x) :
    (i = n ∧ sb.live = some x) ∨ ∃ o, s.sandboxes[i]? = some o ∧ o.live = some x := by
  obtain ⟨o, ho, hlive⟩ := h
  rcases getElem?_set_cases ho with ⟨rfl, rfl⟩ | ⟨-, ho⟩
  · exact Or.inl ⟨rfl, hlive⟩
  · exact Or.inr ⟨o, ho, hlive⟩

/-- A VM is alive after a step if it was before, or if its restore was in flight. -/
theorem Step.live (h : Step e s l s' l')
    (hx : ∃ o, s'.sandboxes[i]? = some o ∧ o.live = some x) :
    (∃ o, s.sandboxes[i]? = some o ∧ o.live = some x) ∨ l.restores = some (i, x) := by
  cases h with
  | finish hi | svcFinish hi =>
    rcases setSandbox_live hx with ⟨rfl, hlive⟩ | hold
    · right
      rw [Pc.restores, Option.some.inj hlive]
    · exact Or.inl hold
  | stop hi =>
    rcases setSandbox_live hx with ⟨-, hlive⟩ | hold
    · simp at hlive
    · exact Or.inl hold
  | publish hi | filesMissing hi | lock hi | preFail hi | record hi | abort hi | svcLock hi
  | svcGiveUp hi | svcSyncErr hi | svcRecord hi | svcAbort hi | svcFail hi | svcFailErr hi
  | rewrite _ hi | remove hi =>
    rcases setSandbox_live hx with ⟨rfl, hlive⟩ | hold
    · exact Or.inl ⟨_, hi, hlive⟩
    · exact Or.inl hold
  | add =>
    obtain ⟨o, ho, hlive⟩ := hx
    rw [List.getElem?_append] at ho
    split at ho
    · exact Or.inl ⟨o, ho, hlive⟩
    · have hnew := List.mem_of_getElem? ho
      rw [List.mem_singleton.mp hnew] at hlive
      simp at hlive
  | _ => exact Or.inl hx

/-- A pass that is under way began with this step, or goes on and forgets nothing: a
sandbox it no longer has to ask was asked now. -/
theorem Step.pass (h : Step e s l s' l') {pass' : List ℕ × List String}
    (hp : l'.pass = some pass') :
    (e = .begins ∧ ∀ i, s.Registered i → i ∈ pass'.1) ∨
      ∃ pass, l.pass = some pass ∧ (∀ x ∈ pass.2, x ∈ pass'.2) ∧
        ∀ i ∈ pass.1, i ∈ pass'.1 ∨
          (e = .asks i ∧ ∃ sb, s.sandboxes[i]? = some sb ∧
            ∀ x, sb.record = some x → x ∈ pass'.2) := by
  cases h with
  | begin h =>
    cases hp
    exact Or.inl ⟨rfl, fun i hi => (h i).mpr hi⟩
  | ask hi =>
    cases hp
    refine Or.inr ⟨_, rfl, ?_, ?_⟩
    · intro x hx
      exact List.mem_append_right _ hx
    · intro n hn
      rcases List.mem_cons.mp hn with rfl | hn
      · refine Or.inr ⟨rfl, _, hi, ?_⟩
        intro x hx
        simp [hx]
      · exact Or.inl hn
  | asked | condemn | collect | collectErr =>
    cases hp
    exact Or.inr ⟨_, rfl, fun _ hx => hx, fun _ hn => Or.inl hn⟩
  | stop => exact Or.inr ⟨pass', hp, fun _ hx => hx, fun _ hn => Or.inl hn⟩
  | _ => simp [Pc.pass] at hp

/-! ## Passes and the entries in use -/

/-- Whatever is in use, every pass has been told or has yet to ask. -/
def Inv : StatePred St := fun s =>
  ∀ (k : ℕ) (l : Pc) (pass : List ℕ × List String), s.tasks[k]? = some l → l.pass = some pass →
    ∀ i x, Uses s i x → i ∈ pass.1 ∨ x ∈ pass.2

/-- A step brings entries into use only by creating a marker. -/
theorem uses_of_step {k : ℕ} {s s' : St} (h : next (k, e) s s') (hu : Uses s' i x) :
    Uses s i x ∨ e = .creates i x := by
  obtain ⟨l, l', hk, hstep, hset⟩ := h
  rcases hu with ⟨j, m, hj, hm⟩ | hlive
  · rw [hset] at hj
    rcases getElem?_set_cases hj with ⟨-, rfl⟩ | ⟨-, hj⟩
    · rcases hstep.restores hm with hold | hnew
      · exact Or.inl (Or.inl ⟨k, l, hk, hold⟩)
      · exact Or.inr hnew
    · exact Or.inl (Or.inl ⟨j, m, hj, hm⟩)
  · rcases hstep.live hlive with hold | hold
    · exact Or.inl (Or.inr hold)
    · exact Or.inl (Or.inl ⟨k, l, hk, hold⟩)

theorem init_inv (s : St) (h : Init s) : Inv s := by
  intro k l pass hk hp
  rw [h.2 l (List.mem_of_getElem? hk)] at hp
  simp [Pc.pass] at hp

/-- What comes into use now, the pass of another task has yet to ask. -/
theorem step_other {k j : ℕ} {s s' : St} {m : Pc} {pass : List ℕ × List String}
    (hok : Recorded (k, e) s) (h : next (k, e) s s') (hs : Inv s) (hj : s.tasks[j]? = some m)
    (hp : m.pass = some pass) (hu : Uses s' i x) : i ∈ pass.1 ∨ x ∈ pass.2 := by
  rcases uses_of_step h hu with hold | rfl
  · exact hs j m pass hj hp i x hold
  · exact Or.inl (hok m (List.mem_of_getElem? hj) pass hp)

theorem step_inv (a : ℕ × Effect) (s s' : St) (hok : Recorded a s) (h : next a s s')
    (hs : Inv s) : Inv s' := by
  obtain ⟨k, e⟩ := a
  obtain ⟨l, l', hk, hstep, hset⟩ := id h
  intro j m pass' hj hp i x hu
  rw [hset] at hj
  rcases getElem?_set_cases hj with ⟨-, rfl⟩ | ⟨-, hj⟩
  · rcases hstep.pass hp with ⟨rfl, hall⟩ | ⟨pass, hp₀, htold, hunread⟩
    · -- a new pass has every sandbox that uses something to ask
      rcases uses_of_step h hu with hold | hnew
      · exact Or.inl (hall i (hok i x hold))
      · simp at hnew
    · rcases step_other hok h hs hk hp₀ hu with hi | hx
      · rcases hunread i hi with hi | ⟨rfl, sb, hsb, hrec⟩
        · exact Or.inl hi
        · -- the sandbox was asked just now, and records what it uses
          rcases uses_of_step h hu with hold | hnew
          · exact Or.inr (hrec x (hok x sb hold hsb))
          · simp at hnew
      · exact Or.inr (htold x hx)
  · exact step_other hok h hs hj hp hu

/-- In every run in which entries come into use and sandboxes are asked in this order, the
collector removes no entry that is in use. -/
theorem collector_safe (s : St) (h : Reachable Init (Guarded Recorded next) s) :
    CollectorSafe s := by
  have hs := h.guarded_invariant init_inv step_inv
  intro k active x hx hk i hu
  rcases hs k _ ([], active) hk rfl i x hu with hi | hx'
  · simp at hi
  · exact hx hx'

/-! ## An orphan, and an entry that looks like one -/

/-- A consumed entry that nobody uses. -/
def orphan : St := ⟨⟨[], [⟨"t1", true⟩], 0⟩, [.idle]⟩

/-- A pass that is about to remove it. -/
def orphanCondemned : St :=
  ⟨⟨[], [⟨"t1", true⟩], 0⟩, [.condemned [] "t1" List.not_mem_nil]⟩

theorem orphan_unused (i : ℕ) (x : String) : ¬ Uses orphan i x := by
  rintro (⟨k, l, hk, hl⟩ | ⟨sb, hi, -⟩)
  · have hidle : l = .idle := List.mem_singleton.mp (List.mem_of_getElem? hk)
    rw [hidle] at hl
    simp [Pc.restores] at hl
  · simp [orphan] at hi

theorem orphanCondemned_reachable : Reachable Init (Guarded Recorded next) orphanCondemned := by
  have h₀ : Reachable Init (Guarded Recorded next) orphan := .init ⟨rfl, by simp [orphan]⟩
  have h₁ := h₀.step ⟨(0, .begins), fun i x hu => absurd hu (orphan_unused i x),
    TaskStep.of_step rfl (@Step.begin _ [] fun i => by simp [Shared.Registered, orphan])⟩
  have h₂ := h₁.step ⟨(0, .quiet), trivial, TaskStep.of_step rfl .asked⟩
  exact h₂.step ⟨(0, .quiet), trivial,
    TaskStep.of_step rfl (.condemn (e := ⟨"t1", true⟩) List.mem_cons_self rfl List.not_mem_nil)⟩

theorem collector_safe_orphanCondemned : CollectorSafe orphanCondemned :=
  collector_safe orphanCondemned orphanCondemned_reachable

/-- A sandbox, an entry that is not consumed, and two idle tasks. -/
def oneSandbox : St := ⟨⟨[⟨true, false, none, none⟩], [⟨"t1", false⟩], 0⟩, [.idle, .idle]⟩

/-- The sandboxer has the lease and has not published it; a pass that asked the sandbox is
about to remove the entry. -/
def unpublished : St :=
  ⟨⟨[⟨true, false, none, none⟩], [⟨"t1", true⟩], 0⟩,
    [.leased 0 "t1", .condemned [] "t1" List.not_mem_nil]⟩

theorem unpublished_reachable : Reachable Init (AnyStep next) unpublished := by
  have h₀ : Reachable Init (AnyStep next) oneSandbox := .init ⟨rfl, by simp [oneSandbox]⟩
  have h₁ := h₀.anyStep (0, Effect.creates 0 "t1")
    (TaskStep.of_step rfl (.create 0 List.mem_cons_self))
  have h₂ := h₁.anyStep (0, Effect.quiet) (TaskStep.of_step rfl .sync)
  have hmap : ∀ i, i ∈ [0] ↔ (oneSandbox.shared.setMarker "t1" true).Registered i := by
    intro i
    cases i <;> simp [Shared.Registered, oneSandbox, Shared.setMarker]
  have h₃ := h₂.anyStep (1, Effect.begins) (TaskStep.of_step rfl (@Step.begin _ [0] hmap))
  have h₄ := h₃.anyStep (1, Effect.asks 0) (TaskStep.of_step rfl (.ask rfl rfl))
  have h₅ := h₄.anyStep (1, Effect.quiet) (TaskStep.of_step rfl .asked)
  exact h₅.anyStep (1, Effect.quiet)
    (TaskStep.of_step rfl (.condemn (e := ⟨"t1", true⟩) List.mem_cons_self rfl List.not_mem_nil))

/-- The entry is removed under the restore. -/
theorem collector_races_publish :
    ∃ s s' : St, ∃ a, Reachable Init (AnyStep next) s ∧ next a s s' ∧ Uses s 0 "t1" ∧
      "t1" ∈ s.shared.entries.map (·.id) ∧ "t1" ∉ s'.shared.entries.map (·.id) ∧
      ¬ CollectorSafe s := by
  have huses : Uses unpublished 0 "t1" := Or.inl ⟨0, .leased 0 "t1", rfl, rfl⟩
  refine ⟨unpublished, _, (1, .quiet), unpublished_reachable, TaskStep.of_step rfl .collect, huses,
    List.mem_cons_self, by decide, ?_⟩
  intro hsafe
  exact hsafe 1 [] "t1" List.not_mem_nil rfl 0 huses

end Kuasar.ContinuationGc

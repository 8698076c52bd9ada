import Kuasar.Tla.Objects
import Kuasar.Template.Types

/-!
# Template.ContinuationCreate — creating the entries of the continuation store

`create_from_sandbox` makes the directory of the snapshot, lets the VM write its files
there, and saves the metadata; what it has made stays when it fails. A creation is refused
if the directory of the snapshot is there. `acquire` takes an entry by its metadata.

Any number of creations, acquires and deletions of an entry run at once, each a row of
file system calls. The entry records, for the proof, whether a creation is between making
the directory and its end, and whether one failed in between.

`creation_refused_iff` says what a refusal can be due to, and that an acquire takes a
complete snapshot, in the runs in which creations of one identity do not overlap and a
deletion removes all of an entry that nobody is creating or acquiring.
-/

namespace Kuasar.ContinuationCreate

open Tla

/-- The files of a snapshot: all of them, or what a snapshot wrote that is under way or failed. -/
inductive Files where
  | incomplete
  | complete
  deriving DecidableEq, Repr

/-- The entry of one workload identity: its directory, the files of its snapshot, its metadata and
its consumed marker. Kept for the proof: `making`, a creation has made the directory of the snapshot
and has not ended; `failed`, one failed after that. -/
structure Entry where
  identity : WorkloadIdentity
  dir : Bool := false
  snapshot : Option Files := none
  metadata : Option PooledTemplate := none
  marker : Bool := false
  making : Bool := false
  failed : Bool := false

/-- The progress of a creation, with the template it is to save, and of an `acquire` with its
lease. -/
inductive Call where
  | checked (t : PooledTemplate)
  | made (t : PooledTemplate)
  | snapped (t : PooledTemplate)
  | found
  | unmarked
  | loaded (t : PooledTemplate)
  | created (t : PooledTemplate)
  | lease (t : PooledTemplate)

def Call.creating : Call → Bool
  | .checked _ => true
  | .made _ => true
  | .snapped _ => true
  | _ => false

/-- The call is an `acquire` that has not returned. -/
def Call.acquiring : Call → Bool
  | .found => true
  | .unmarked => true
  | .loaded _ => true
  | .created _ => true
  | _ => false

/-- What a move does that the conditions and the results speak of. -/
inductive Effect where
  | quiet
  | refuses
  | checks
  | fails
  | deletes
  | deletesPart
  | acquires
  deriving DecidableEq, Repr

/-- The template is one of the entry: what a creation saves, and what `acquire` demands. -/
def Entry.Accepts (o : Entry) (t : PooledTemplate) : Prop :=
  t.snapshotType = .continuation ∧ t.workloadIdentity = some o.identity

/-- One call to the system or to the VM. -/
inductive Move : Effect → Unit → Entry → Option Call → Unit → Entry → Option Call → Prop where
  -- create_from_sandbox: a check of the request or of the sandbox fails
  | reject {o} : Move .quiet () o none () o none
  -- the directory of the snapshot exists
  | refuse {o} (h : o.snapshot ≠ none) : Move .refuses () o none () o none
  | check {o t} (h : o.snapshot = none) (ht : o.Accepts t) :
      Move .checks () o none () o (some (.checked t))
  | makeDir {o t} :
      Move .quiet () o (some (.checked t)) ()
        { o with dir := true, snapshot := some (o.snapshot.getD .incomplete), making := true }
        (some (.made t))
  -- create_dir_all may have made the directory of the entry
  | makeDirErr {o t} (dir : Bool) :
      Move .quiet () o (some (.checked t)) () { o with dir := o.dir || dir } none
  | snap {o t} (h : o.snapshot ≠ none) :
      Move .quiet () o (some (.made t)) () { o with snapshot := some .complete }
        (some (.snapped t))
  -- nothing is removed
  | snapErr {o t} :
      Move .fails () o (some (.made t)) ()
        { o with
          snapshot := o.snapshot.map fun _ => .incomplete
          making := false
          failed := true } none
  -- ContinuationStore::save: the metadata is renamed into place
  | save {o t} :
      Move .quiet () o (some (.snapped t)) ()
        { o with dir := true, metadata := some t, making := false } none
  | saveErr {o t} :
      Move .fails () o (some (.snapped t)) () { o with making := false, failed := true } none
  -- delete, delete_by_template_id and gc_orphaned_consumed: remove_dir_all
  | delete {o} : Move .deletes () o none () { identity := o.identity } none
  | deletePart {o} (snapshot : Option Files) (metadata : Option PooledTemplate) (marker : Bool)
      (hsnapshot : snapshot = o.snapshot ∨ snapshot = o.snapshot.map (fun _ => .incomplete) ∨
        snapshot = none)
      (hmetadata : metadata = o.metadata ∨ metadata = none)
      (hmarker : marker = true → o.marker = true) :
      Move .deletesPart () o none ()
        { o with snapshot := snapshot, metadata := metadata, marker := marker } none
  -- acquire: an entry that is not there, or whose stat fails, is no entry
  | find {o} (h : o.dir = true) : Move .quiet () o none () o (some .found)
  | consumed {o} (h : o.marker = true) : Move .quiet () o (some .found) () o none
  -- a stat of the marker that fails counts as no marker
  | unmarked {o} (statOk : Bool) (h : statOk = true → o.marker = false) :
      Move .quiet () o (some .found) () o (some .unmarked)
  | load {o t} (h : o.metadata = some t) (ht : o.Accepts t) :
      Move .quiet () o (some .unmarked) () o (some (.loaded t))
  | loadErr {o} : Move .quiet () o (some .unmarked) () o none
  | create {o t} :
      Move .quiet () o (some (.loaded t)) () { o with marker := true } (some (.created t))
  | createErr {o t} : Move .quiet () o (some (.loaded t)) () o none
  | syncOk {o t} : Move .acquires () o (some (.created t)) () o (some (.lease t))
  | syncErr {o t} : Move .quiet () o (some (.created t)) () o none
  -- ContinuationLease::complete and fail
  | complete {o t} : Move .quiet () o (some (.lease t)) () o none
  | fail {o t} : Move .quiet () o (some (.lease t)) () { o with marker := false } none
  | failErr {o t} : Move .quiet () o (some (.lease t)) () o none

/-- The entries and the calls on them. -/
abbrev St := World Unit Entry Call

/-- Task `k` makes a move on entry `i`. -/
structure Label where
  k : ℕ
  i : ℕ
  effect : Effect

def next (l : Label) : Action St := ObjectStep Move l.k l.i l.effect

/-! ## The conditions -/

/-- What a move asks of the other calls on its entry. -/
def Free : Effect → Call → Prop
  | .checks, m => m.creating = false
  | .deletes, m => m.creating = false ∧ m.acquiring = false
  | _, _ => True

/-- A deletion removes all of the entry. -/
def Whole (e : Effect) (_ : Entry) : Prop := e ≠ .deletesPart

/-- Creations of an entry do not overlap; a deletion removes all of an entry that nobody is creating
or acquiring. -/
def Orderly (l : Label) : StatePred St := fun s =>
  l.effect ≠ .deletesPart ∧
    ∀ (j : ℕ) (m : Call), j ≠ l.k → s.tasks[j]? = some (some (l.i, m)) → Free l.effect m

/-- And no creation fails after it has made the directory of the snapshot. -/
def Careful (l : Label) : StatePred St := fun s => Orderly l s ∧ l.effect ≠ .fails

/-! ## The entry and the calls on it -/

/-- An entry with metadata is complete, and is not one at which a creation failed; the directory of
a snapshot is there for one of three reasons. -/
structure EntryInv (o : Entry) : Prop where
  stored : o.metadata ≠ none → o.snapshot = some .complete ∧ o.failed = false
  there : o.failed = true ∨ o.making = true → o.snapshot ≠ none
  reason : o.snapshot ≠ none → o.failed = true ∨ o.metadata ≠ none ∨ o.making = true

/-- A creation has the entry for itself; an acquire that has read the metadata has a complete
one. -/
def CallInv (o : Entry) : Call → Prop
  | .checked _ => o.snapshot = none ∧ o.metadata = none ∧ o.failed = false
  | .made _ => o.snapshot ≠ none ∧ o.metadata = none ∧ o.failed = false
  | .snapped _ => o.snapshot = some .complete ∧ o.metadata = none ∧ o.failed = false
  | .loaded t => o.metadata = some t
  | .created t => o.metadata = some t
  | _ => True

/-- Not both calls are creations. -/
def Apart (c d : Call) : Prop := (c.creating && d.creating) = false

/-- Entries that are stored or not there, and no call. -/
def Init : StatePred St := fun s =>
  (∀ o ∈ s.objects, EntryInv o ∧ o.failed = false ∧ o.making = false) ∧ ∀ l ∈ s.tasks, l = none

variable {e : Effect} {o o' : Entry} {c c' : Option Call} {m : Call}

theorem Apart.symm {d : Call} (h : Apart d m) : Apart m d := by
  unfold Apart at h ⊢
  rwa [Bool.and_comm]

theorem Apart.not_creating {d : Call} (h : Apart d m) (hd : d.creating = true) :
    m.creating = false := by
  unfold Apart at h
  rwa [hd, Bool.true_and] at h

theorem apart_of_left {d : Call} (hd : d.creating = false) : Apart d m := by
  rw [Apart, hd, Bool.false_and]

theorem apart_of_right {d : Call} (hm : m.creating = false) : Apart d m := by
  rw [Apart, hm, Bool.and_false]

/-- What is known of a call rests on the snapshot, the metadata and the failure. -/
theorem CallInv.of_same (hm : CallInv o m) (hsnapshot : o'.snapshot = o.snapshot)
    (hmetadata : o'.metadata = o.metadata) (hfailed : o'.failed = o.failed) : CallInv o' m := by
  cases m with
  | checked | made | snapped =>
    simp only [CallInv] at hm ⊢
    rwa [hsnapshot, hmetadata, hfailed]
  | loaded | created =>
    simp only [CallInv] at hm ⊢
    rwa [hmetadata]
  | _ => trivial

/-- Of a call on an entry without metadata that is no creation nothing is known. -/
theorem CallInv.of_none (hm : CallInv o m) (hmetadata : o.metadata = none)
    (hcreating : m.creating = false) : CallInv o' m := by
  cases m with
  | checked | made | snapped => cases hcreating
  | loaded | created =>
    simp only [CallInv] at hm
    rw [hmetadata] at hm
    cases hm
  | _ => trivial

theorem EntryInv.of_same (ho : EntryInv o) (hsnapshot : o'.snapshot = o.snapshot)
    (hmetadata : o'.metadata = o.metadata) (hmaking : o'.making = o.making)
    (hfailed : o'.failed = o.failed) : EntryInv o' := by
  refine ⟨?_, ?_, ?_⟩
  · rw [hmetadata, hsnapshot, hfailed]
    exact ho.stored
  · rw [hmaking, hsnapshot, hfailed]
    exact ho.there
  · rw [hmetadata, hsnapshot, hmaking, hfailed]
    exact ho.reason

/-- An entry without a snapshot has no metadata and no failure. -/
theorem EntryInv.absent (ho : EntryInv o) (h : o.snapshot = none) :
    o.metadata = none ∧ o.failed = false := by
  constructor
  · by_contra hmetadata
    rw [(ho.stored hmetadata).1] at h
    cases h
  · by_contra hfailed
    exact ho.there (Or.inl (by simpa using hfailed)) h

theorem call_over {P : Call → Prop} : ∀ d, none = some d → P d := by
  simp

/-- A move keeps the entry and its own call in step. -/
theorem Move.self (h : Move e () o c () o' c') (hok : Whole e o) (ho : EntryInv o)
    (hc : ∀ d, c = some d → CallInv o d) : EntryInv o' ∧ ∀ d, c' = some d → CallInv o' d := by
  cases h with
  | check habsent =>
    refine ⟨ho, ?_⟩
    rintro d ⟨⟩
    exact ⟨habsent, ho.absent habsent⟩
  | makeDir =>
    obtain ⟨-, hmetadata, hfailed⟩ := hc _ rfl
    refine ⟨⟨?_, fun _ => Option.some_ne_none _, fun _ => Or.inr (Or.inr rfl)⟩, ?_⟩
    · exact fun hstored => absurd hmetadata hstored
    · rintro d ⟨⟩
      exact ⟨Option.some_ne_none _, hmetadata, hfailed⟩
  | makeDirErr | fail => exact ⟨ho.of_same rfl rfl rfl rfl, call_over⟩
  | snap hthere =>
    obtain ⟨-, hmetadata, hfailed⟩ := hc _ rfl
    refine ⟨⟨?_, fun _ => Option.some_ne_none _, fun _ => ho.reason hthere⟩, ?_⟩
    · exact fun hstored => absurd hmetadata hstored
    · rintro d ⟨⟩
      exact ⟨rfl, hmetadata, hfailed⟩
  | snapErr =>
    obtain ⟨hthere, hmetadata, -⟩ := hc _ rfl
    refine ⟨⟨fun hstored => absurd hmetadata hstored, ?_, fun _ => Or.inl rfl⟩, call_over⟩
    intro _ hnone
    exact hthere (Option.map_eq_none_iff.mp hnone)
  | save =>
    obtain ⟨hcomplete, -, hfailed⟩ := hc _ rfl
    refine ⟨⟨fun _ => ⟨hcomplete, hfailed⟩, ?_, ?_⟩, call_over⟩
    · intro _ hnone
      rw [hcomplete] at hnone
      cases hnone
    · exact fun _ => Or.inr (Or.inl (Option.some_ne_none _))
  | saveErr =>
    obtain ⟨hcomplete, hmetadata, -⟩ := hc _ rfl
    refine ⟨⟨fun hstored => absurd hmetadata hstored, ?_, fun _ => Or.inl rfl⟩, call_over⟩
    intro _ hnone
    rw [hcomplete] at hnone
    cases hnone
  | delete =>
    refine ⟨⟨fun hstored => absurd rfl hstored, ?_, fun hthere => absurd rfl hthere⟩, call_over⟩
    rintro (hfailed | hmaking)
    · cases hfailed
    · cases hmaking
  | deletePart => exact absurd rfl hok
  | load hmetadata =>
    refine ⟨ho, ?_⟩
    rintro d ⟨⟩
    exact hmetadata
  | create =>
    refine ⟨ho.of_same rfl rfl rfl rfl, ?_⟩
    rintro d ⟨⟩
    exact hc _ rfl
  | find | unmarked | syncOk =>
    refine ⟨ho, ?_⟩
    rintro d ⟨⟩
    trivial
  | _ => exact ⟨ho, call_over⟩

/-- A move leaves the other calls on the entry in step, and its own apart from them. -/
theorem Move.other (h : Move e () o c () o' c') (hok : Whole e o) (hfree : Free e m)
    (hc : ∀ d, c = some d → CallInv o d ∧ Apart d m) (hm : CallInv o m) :
    CallInv o' m ∧ ∀ d, c' = some d → Apart d m := by
  cases h with
  | check =>
    refine ⟨hm, ?_⟩
    rintro d ⟨⟩
    exact apart_of_right hfree
  | makeDir | snap =>
    obtain ⟨hcall, hapart⟩ := hc _ rfl
    have hcreating := hapart.not_creating rfl
    refine ⟨hm.of_none hcall.2.1 hcreating, ?_⟩
    rintro d ⟨⟩
    exact apart_of_right hcreating
  | snapErr | save | saveErr =>
    obtain ⟨hcall, hapart⟩ := hc _ rfl
    exact ⟨hm.of_none hcall.2.1 (hapart.not_creating rfl), call_over⟩
  | makeDirErr | fail => exact ⟨hm.of_same rfl rfl rfl, call_over⟩
  | delete =>
    refine ⟨?_, call_over⟩
    -- the call is a lease
    cases m with
    | lease => trivial
    | checked | made | snapped => cases hfree.1
    | found | unmarked | loaded | created => cases hfree.2
  | deletePart => exact absurd rfl hok
  | create =>
    refine ⟨hm.of_same rfl rfl rfl, ?_⟩
    rintro d ⟨⟩
    exact apart_of_left rfl
  | find | unmarked | load | syncOk =>
    refine ⟨hm, ?_⟩
    rintro d ⟨⟩
    exact apart_of_left rfl
  | _ => exact ⟨hm, call_over⟩

/-! ## Runs -/

theorem init_inv (s : St) (h : Init s) : Coherent EntryInv CallInv Apart s := by
  obtain ⟨hentries, hidle⟩ := h
  refine Coherent.of_idle hidle ?_
  intro i o hi
  exact (hentries o (List.mem_of_getElem? hi)).1

theorem step_inv (l : Label) (s s' : St) (hok : Orderly l s) (h : next l s s')
    (hs : Coherent EntryInv CallInv Apart s) : Coherent EntryInv CallInv Apart s' := by
  refine hs.step_free Whole h (fun _ _ => hok.1) ?_ Free hok.2 ?_
  · intro u o c u' o' c' hmove hwhole ho hc
    exact hmove.self hwhole ho hc
  · intro u o c u' o' c' m hmove hwhole hfree _ hc hm
    obtain ⟨hm', hapart⟩ :=
      hmove.other hwhole hfree (fun d hd => ⟨(hc d hd).1, (hc d hd).2.1⟩) hm
    exact ⟨hm', fun d hd => ⟨hapart d hd, (hapart d hd).symm⟩⟩

theorem Move.failed (h : Move e () o c () o' c') (hok : e ≠ .fails) (ho : o.failed = false) :
    o'.failed = false := by
  cases h with
  | snapErr | saveErr => exact absurd rfl hok
  | delete => rfl
  | _ => exact ho

/-- No creation has failed after it had made the directory. -/
def NoneFailed : StatePred St := fun s =>
  ∀ (i : ℕ) (o : Entry), s.objects[i]? = some o → o.failed = false

theorem noneFailed {s : St} (hr : Reachable Init (Guarded Careful next) s) : NoneFailed s := by
  refine hr.guarded_invariant ?_ ?_
  · intro s hinit i o hi
    exact (hinit.1 o (List.mem_of_getElem? hi)).2.1
  · rintro l s s' ⟨-, hok⟩ ⟨o, o', c, c', -, hi, hmove, hobjects, -⟩ hs j p hj
    rw [hobjects] at hj
    rcases getElem?_set_cases hj with ⟨-, rfl⟩ | ⟨-, hp⟩
    · exact hmove.failed hok (hs l.i o hi)
    · exact hs j p hp

/-- A creation is refused exactly if one failed after it had made the directory of the snapshot, the
entry is stored, or another creation is under way; a run in which none fails so leaves the last two.
An acquire takes an entry whose snapshot is complete. -/
theorem creation_refused_iff {s : St} (hr : Reachable Init (Guarded Orderly next) s) {i : ℕ}
    {o : Entry} (hi : s.objects[i]? = some o) :
    (o.snapshot ≠ none ↔ o.failed = true ∨ o.metadata ≠ none ∨ o.making = true) ∧
      (Reachable Init (Guarded Careful next) s → o.failed = false) ∧
      ∀ (k : ℕ) (s' : St), next ⟨k, i, .acquires⟩ s s' → o.snapshot = some .complete := by
  have hs := hr.guarded_invariant init_inv step_inv
  have ho := hs.object i o hi
  refine ⟨⟨ho.reason, ?_⟩, fun hcareful => noneFailed hcareful i o hi, ?_⟩
  · rintro (hfailed | hstored | hmaking)
    · exact ho.there (Or.inl hfailed)
    · rw [(ho.stored hstored).1]
      exact Option.some_ne_none _
    · exact ho.there (Or.inr hmaking)
  · rintro k s' ⟨p, p', c, c', hk, hp, hmove, -⟩
    have hcall := hs.callOf hk hp
    obtain rfl := Option.some.inj (hi.symm.trans hp)
    cases hmove with
    | syncOk =>
      have hmetadata := hcall _ rfl
      apply (ho.stored _).1
      rw [hmetadata]
      exact Option.some_ne_none _

/-! ## What a failed creation leaves -/

/-- A continuation snapshot of the first run of a pod. -/
def template : PooledTemplate where
  id := "t1"
  key := ⟨"pod-g0"⟩
  snapshotType := .continuation
  workloadIdentity := some ⟨"pod", 0⟩

/-- One identity without an entry, and two idle tasks. -/
def noEntry : St := ⟨(), [{ identity := ⟨"pod", 0⟩ }], [none, none]⟩

theorem noEntry_init : Init noEntry := by
  refine ⟨?_, by simp [noEntry]⟩
  intro o ho
  rw [List.mem_singleton.mp ho]
  refine ⟨⟨fun hstored => absurd rfl hstored, ?_, fun hthere => absurd rfl hthere⟩, rfl, rfl⟩
  rintro (hfailed | hmaking)
  · cases hfailed
  · cases hmaking

theorem orderly_idle {s : St} {k i : ℕ} (hidle : ∀ l ∈ s.tasks, l = none)
    (he : e ≠ .deletesPart) : Orderly ⟨k, i, e⟩ s := by
  refine ⟨he, ?_⟩
  intro j m _ hj
  cases hidle _ (List.mem_of_getElem? hj)

theorem orderly_quiet {s : St} {k i : ℕ} : Orderly ⟨k, i, .quiet⟩ s :=
  ⟨by simp, fun _ _ _ _ => trivial⟩

/-- A creation that succeeds: the next one is refused because the entry is stored. -/
theorem creation_refused_stored :
    ∃ s o, Reachable Init (Guarded Orderly next) s ∧ s.objects[0]? = some o ∧
      o.metadata = some template ∧ o.snapshot ≠ none := by
  have h₀ : Reachable Init (Guarded Orderly next) noEntry := .init noEntry_init
  have h₁ := h₀.step ⟨⟨0, 0, .checks⟩, orderly_idle noEntry_init.2 (by simp),
    .idle rfl rfl (.check (t := template) rfl ⟨rfl, rfl⟩)⟩
  have h₂ := h₁.step ⟨⟨0, 0, .quiet⟩, orderly_quiet, .call rfl rfl .makeDir⟩
  have h₃ := h₂.step ⟨⟨0, 0, .quiet⟩, orderly_quiet, .call rfl rfl (.snap (Option.some_ne_none _))⟩
  have h₄ := h₃.step ⟨⟨0, 0, .quiet⟩, orderly_quiet, .call rfl rfl .save⟩
  refine ⟨_, _, h₄, rfl, rfl, (creation_refused_iff h₄ (i := 0) rfl).1.mpr ?_⟩
  exact Or.inr (Or.inl (Option.some_ne_none _))

/-- The VM fails to write the snapshot: the entry has no metadata, nobody is creating it, and every
further creation is refused. And an entry of which a failed deletion left the metadata: the next
creation is acquired while its snapshot is incomplete. -/
theorem failed_creation_refuses :
    (∃ s o, Reachable Init (AnyStep next) s ∧ s.objects[0]? = some o ∧ o.metadata = none ∧
      o.making = false ∧ ∃ s', next ⟨0, 0, .refuses⟩ s s') ∧
    ∃ s o, Reachable Init (AnyStep next) s ∧ s.objects[0]? = some o ∧
      o.snapshot = some .incomplete ∧ ∃ s', next ⟨1, 0, .acquires⟩ s s' := by
  have h₀ : Reachable Init (AnyStep next) noEntry := .init noEntry_init
  have h₁ := h₀.anyStep ⟨0, 0, .checks⟩ (.idle rfl rfl (.check (t := template) rfl ⟨rfl, rfl⟩))
  have h₂ := h₁.anyStep ⟨0, 0, .quiet⟩ (.call rfl rfl .makeDir)
  constructor
  · have h₃ := h₂.anyStep ⟨0, 0, .fails⟩ (.call rfl rfl .snapErr)
    exact ⟨_, _, h₃, rfl, rfl, rfl, _,
      .idle rfl rfl (.refuse (Option.some_ne_none _))⟩
  · have h₃ := h₂.anyStep ⟨0, 0, .quiet⟩ (.call rfl rfl (.snap (Option.some_ne_none _)))
    have h₄ := h₃.anyStep ⟨0, 0, .quiet⟩ (.call rfl rfl .save)
    -- the deletion removes the snapshot and fails at the metadata
    have h₅ := h₄.anyStep ⟨0, 0, .deletesPart⟩ (.idle rfl rfl
        (.deletePart none (some template) false (Or.inr (Or.inr rfl)) (Or.inl rfl) (by simp)))
    have h₆ := h₅.anyStep ⟨0, 0, .checks⟩ (.idle rfl rfl (.check (t := template) rfl ⟨rfl, rfl⟩))
    have h₇ := h₆.anyStep ⟨0, 0, .quiet⟩ (.call rfl rfl .makeDir)
    have h₈ := h₇.anyStep ⟨1, 0, .quiet⟩ (.idle rfl rfl (.find rfl))
    have h₉ := h₈.anyStep ⟨1, 0, .quiet⟩ (.call rfl rfl (.unmarked true fun _ => rfl))
    have h₁₀ := h₉.anyStep ⟨1, 0, .quiet⟩ (.call rfl rfl (.load (t := template) rfl ⟨rfl, rfl⟩))
    have h₁₁ := h₁₀.anyStep ⟨1, 0, .quiet⟩ (.call rfl rfl .create)
    exact ⟨_, _, h₁₁, rfl, rfl, _, .call rfl rfl .syncOk⟩

end Kuasar.ContinuationCreate

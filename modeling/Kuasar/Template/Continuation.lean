import Kuasar.Tla.Objects
import Kuasar.Template.Types

/-!
# Template.Continuation — the continuation store

A continuation snapshot is kept per workload identity, in a directory of its own, and
nothing about it is kept in memory. `acquire` looks whether the consumed marker is
there, reads the metadata, and creates the marker; the lease removes the marker again
if the restore fails. Each of these is a file system call of its own, and any number of
acquires of one identity run at once, with crashes between them.

`File::create` does not mind a marker that is already there. So the entry is used once
in the runs in which no acquire creates a marker that exists (`acquire_single_use`), and
two acquires that both looked before either created it both get a lease
(`acquire_races_acquire`).
-/

namespace Kuasar.ContinuationStore

open Tla

/-- The entry of one workload identity: its metadata as far as it can be read, and its
consumed marker. Kept for the proof: whether a restore from it completed. -/
structure Entry where
  identity : WorkloadIdentity
  dir : Bool
  metadata : Option PooledTemplate
  marker : Bool
  completed : Bool

/-- The progress of an `acquire` and of the lease it returns. -/
inductive Call where
  | found
  | unmarked
  | loaded (t : PooledTemplate)
  | created (t : PooledTemplate)
  | lease (t : PooledTemplate)

/-- What a move does that other calls must not collide with: create the marker. -/
inductive Effect where
  | quiet
  | creates
  deriving DecidableEq, Repr

/-- What `acquire` demands of the metadata. -/
def Entry.accepts (o : Entry) (t : PooledTemplate) : Prop :=
  t.snapshotType = .continuation ∧ t.workloadIdentity = some o.identity

/-- One file system call. -/
inductive Move : Effect → Unit → Entry → Option Call → Unit → Entry → Option Call → Prop where
  -- acquire: an entry that is not there, or whose stat fails, is no entry
  | find {o} (h : o.dir = true) : Move .quiet () o none () o (some .found)
  | consumed {o} (h : o.marker = true) : Move .quiet () o (some .found) () o none
  -- a stat of the marker that fails counts as no marker
  | unmarked {o} (statOk : Bool) (h : statOk = true → o.marker = false) :
      Move .quiet () o (some .found) () o (some .unmarked)
  | load {o t} (h : o.metadata = some t) (ht : o.accepts t) :
      Move .quiet () o (some .unmarked) () o (some (.loaded t))
  | reject {o} : Move .quiet () o (some .unmarked) () o none
  -- write_consumed_marker: File::create succeeds whether or not the file exists
  | create {o t} :
      Move .creates () o (some (.loaded t)) () { o with marker := true } (some (.created t))
  | createErr {o t} : Move .quiet () o (some (.loaded t)) () o none
  | syncOk {o t} : Move .quiet () o (some (.created t)) () o (some (.lease t))
  | syncErr {o t} : Move .quiet () o (some (.created t)) () o none
  -- ContinuationLease::complete
  | complete {o t} : Move .quiet () o (some (.lease t)) () { o with completed := true } none
  -- ContinuationLease::fail
  | fail {o t} : Move .quiet () o (some (.lease t)) () { o with marker := false } none
  | failErr {o t} : Move .quiet () o (some (.lease t)) () o none

/-- The entries and the calls on them. -/
abbrev St := World Unit Entry Call

/-- An entry over a crash: a marker that some acquire had not synced may be lost, one that
was removed may come back. -/
def Survives (s : St) (i : ℕ) (o o' : Entry) : Prop :=
  o'.identity = o.identity ∧ o'.dir = o.dir ∧ o'.metadata = o.metadata ∧
    o'.completed = o.completed ∧
    (o.marker = true →
      (∀ (k : ℕ) (t : PooledTemplate), s.tasks[k]? ≠ some (some (i, .created t))) →
        o'.marker = true)

/-- The process dies and comes back; the store has nothing to load. -/
def Restart (n : ℕ) : Action St := fun s s' =>
  s'.objects.length = s.objects.length ∧
    (∀ (i : ℕ) (o o' : Entry), s.objects[i]? = some o → s'.objects[i]? = some o' →
      Survives s i o o') ∧
    s'.tasks = List.replicate n none

/-- Task `k` makes a move on entry `i`, or the process restarts. -/
inductive Label where
  | task (k i : ℕ) (e : Effect)
  | restart (n : ℕ)

/-- The steps. -/
def next : Label → Action St
  | .task k i e => ObjectStep Move k i e
  | .restart n => Restart n

def identities (s : St) : List WorkloadIdentity := s.objects.map (·.identity)

/-- Any entries, each of its own identity, from none of which a restore completed, and idle
tasks. -/
def Init : StatePred St := fun s =>
  (identities s).Nodup ∧ (∀ o ∈ s.objects, o.completed = false) ∧ ∀ l ∈ s.tasks, l = none

/-- The marker is created only where there is none. -/
def CreatesNew : Label → StatePred St
  | .task _ i .creates, s => ∀ o, s.objects[i]? = some o → o.marker = false
  | _, _ => True

/-- At most one lease for an identity is outstanding, and none on an entry from which a
restore completed. -/
def SingleUse : StatePred St := fun s =>
  (∀ (j k i n : ℕ) (o p : Entry) (t u : PooledTemplate), j ≠ k →
    s.tasks[j]? = some (some (i, .lease t)) → s.tasks[k]? = some (some (n, .lease u)) →
    s.objects[i]? = some o → s.objects[n]? = some p → o.identity ≠ p.identity) ∧
  ∀ (k i : ℕ) (o : Entry) (t : PooledTemplate), s.objects[i]? = some o → o.completed = true →
    s.tasks[k]? ≠ some (some (i, .lease t))

/-! ## The marker stands for the call that created it -/

def Call.owns : Call → Bool
  | .created _ => true
  | .lease _ => true
  | _ => false

def EntryInv (o : Entry) : Prop := o.completed = true → o.marker = true

def CallInv (o : Entry) (c : Call) : Prop :=
  c.owns = true → o.marker = true ∧ o.completed = false

/-- The marker of an entry was created by one call at most. -/
def Apart (c d : Call) : Prop := (c.owns && d.owns) = false

/-- The guard, as a condition on the entry. -/
def CreatesNewOn : Effect → Entry → Prop
  | .creates, o => o.marker = false
  | .quiet, _ => True

variable {e : Effect} {o o' : Entry} {c c' : Option Call} {m : Call}

theorem CallInv.not_owns (hm : CallInv o m) (h : o.marker = false) : m.owns = false := by
  by_contra ho
  have := (hm (by simpa using ho)).1
  rw [h] at this
  simp at this

theorem Apart.owns {d : Call} (h : Apart d m) (hd : d.owns = true) : m.owns = false := by
  unfold Apart at h
  rwa [hd, Bool.true_and] at h

theorem Apart.symm {d : Call} (h : Apart d m) : Apart m d := by
  unfold Apart at h ⊢
  rwa [Bool.and_comm]

theorem callInv_of_not_owns (h : m.owns = false) : CallInv o m := by
  intro ho
  rw [h] at ho
  simp at ho

/-- A move keeps the entry and its own call in step. -/
theorem Move.self (h : Move e () o c () o' c') (hok : CreatesNewOn e o) (ho : EntryInv o)
    (hc : ∀ d, c = some d → CallInv o d) : EntryInv o' ∧ ∀ d, c' = some d → CallInv o' d := by
  cases h with
  | create =>
    refine ⟨fun _ => rfl, ?_⟩
    intro d hd
    cases hd
    intro _
    refine ⟨rfl, ?_⟩
    -- the marker was not there, so no restore has completed
    by_contra hcompleted
    have hmarker : o.marker = true := ho (by simpa using hcompleted)
    rw [hok] at hmarker
    simp at hmarker
  | syncOk =>
    refine ⟨ho, ?_⟩
    intro d hd
    cases hd
    exact fun _ => hc _ rfl rfl
  | complete => exact ⟨fun _ => (hc _ rfl rfl).1, by simp⟩
  | fail =>
    refine ⟨?_, by simp⟩
    intro hcompleted
    have := (hc _ rfl rfl).2
    rw [hcompleted] at this
    simp at this
  | find | unmarked | load =>
    refine ⟨ho, ?_⟩
    intro d hd
    cases hd
    exact callInv_of_not_owns rfl
  | _ => exact ⟨ho, by simp⟩

/-- A move leaves the other calls on the entry in step, and its own apart from them. -/
theorem Move.other (h : Move e () o c () o' c') (hok : CreatesNewOn e o)
    (hc : ∀ d, c = some d → CallInv o d ∧ Apart d m) (hm : CallInv o m) :
    CallInv o' m ∧ ∀ d, c' = some d → Apart d m := by
  cases h with
  | create =>
    have hfree := hm.not_owns hok
    refine ⟨callInv_of_not_owns hfree, ?_⟩
    intro d hd
    cases hd
    exact hfree
  | syncOk =>
    have hfree := (hc _ rfl).2.owns rfl
    refine ⟨hm, ?_⟩
    intro d hd
    cases hd
    exact hfree
  | complete | fail => exact ⟨callInv_of_not_owns ((hc _ rfl).2.owns rfl), by simp⟩
  | find | unmarked | load =>
    refine ⟨hm, ?_⟩
    intro d hd
    cases hd
    rfl
  | _ => exact ⟨hm, by simp⟩

/-! ## Runs -/

structure Inv (s : St) : Prop where
  coherent : Coherent EntryInv CallInv Apart s
  distinct : (identities s).Nodup

theorem init_inv (s : St) (h : Init s) : Inv s := by
  obtain ⟨hnodup, hfresh, hidle⟩ := h
  refine ⟨Coherent.of_idle hidle ?_, hnodup⟩
  intro i o hi hcompleted
  rw [hfresh o (List.mem_of_getElem? hi)] at hcompleted
  simp at hcompleted

theorem restart_identities {n : ℕ} {s s' : St} (h : Restart n s s') :
    identities s' = identities s := by
  obtain ⟨hlen, hkept, -⟩ := h
  refine List.ext_getElem (by simp [identities, hlen]) ?_
  intro i hi' hi
  simp only [identities, List.length_map] at hi hi'
  simp only [identities, List.getElem_map]
  exact (hkept i _ _ (List.getElem?_eq_getElem hi) (List.getElem?_eq_getElem hi')).1

theorem restart_inv {n : ℕ} {s s' : St} (h : Restart n s s') (hs : Inv s) : Inv s' := by
  have hids := restart_identities h
  obtain ⟨hlen, hkept, htasks⟩ := h
  refine ⟨Coherent.of_idle ?_ ?_, by rw [hids]; exact hs.distinct⟩
  · intro l hl
    rw [htasks] at hl
    exact List.eq_of_mem_replicate hl
  · intro i o' hi' hcompleted'
    have hlt : i < s.objects.length := by
      rw [← hlen]
      exact (List.getElem?_eq_some_iff.mp hi').1
    have hi : s.objects[i]? = some s.objects[i] := List.getElem?_eq_getElem hlt
    obtain ⟨-, -, -, hcompleted, hmarker⟩ := hkept i _ o' hi hi'
    rw [hcompleted] at hcompleted'
    refine hmarker (hs.coherent.object i _ hi hcompleted') ?_
    -- nobody is marking an entry that is used up
    intro k t hk
    obtain ⟨o, ho, hcall⟩ := hs.coherent.call k i _ hk
    rw [hi] at ho
    cases ho
    have := (hcall rfl).2
    rw [hcompleted'] at this
    simp at this

theorem Move.identity {u u' : Unit} (h : Move e u o c u' o' c') : o'.identity = o.identity := by
  cases h <;> rfl

theorem task_inv {k i : ℕ} {s s' : St} (hok : CreatesNew (.task k i e) s)
    (h : ObjectStep Move k i e s s') (hs : Inv s) : Inv s' := by
  have hon : ∀ o, s.objects[i]? = some o → CreatesNewOn e o := by
    intro o hi
    cases e with
    | quiet => trivial
    | creates => exact hok o hi
  have hids : identities s' = identities s :=
    h.map_objects Entry.identity fun _ _ _ _ _ _ hmove => hmove.identity
  refine ⟨hs.coherent.step CreatesNewOn h hon ?_ ?_, by rw [hids]; exact hs.distinct⟩
  · intro u o c u' o' c' hmove hok ho hc
    exact hmove.self hok ho hc
  · intro u o c u' o' c' m hmove hok _ hc hm
    obtain ⟨hm', hap⟩ := hmove.other hok (fun d hd => ⟨(hc d hd).1, (hc d hd).2.1⟩) hm
    exact ⟨hm', fun d hd => ⟨hap d hd, (hap d hd).symm⟩⟩

theorem step_inv (l : Label) (s s' : St) (hok : CreatesNew l s) (h : next l s s') (hs : Inv s) :
    Inv s' := by
  cases l with
  | task k i e => exact task_inv hok h hs
  | restart n => exact restart_inv h hs

theorem Inv.same_entry {s : St} (hs : Inv s) {i n : ℕ} {o p : Entry} (hi : s.objects[i]? = some o)
    (hn : s.objects[n]? = some p) (h : o.identity = p.identity) : i = n := by
  obtain ⟨hlt, rfl⟩ := List.getElem?_eq_some_iff.mp hi
  obtain ⟨hlt', rfl⟩ := List.getElem?_eq_some_iff.mp hn
  have hi' : i < (identities s).length := by simpa [identities] using hlt
  have hn' : n < (identities s).length := by simpa [identities] using hlt'
  have hget : (identities s)[i] = (identities s)[n] := by simpa [identities] using h
  exact hs.distinct.getElem_inj_iff.mp hget

/-- In every run in which the marker is created only where there is none, over any number
of restarts, an identity has one lease at a time and none after its restore completed. -/
theorem acquire_single_use (s : St) (h : Reachable Init (Guarded CreatesNew next) s) :
    SingleUse s := by
  have hs := h.guarded_invariant init_inv step_inv
  refine ⟨?_, ?_⟩
  · intro j k i n o p t u hjk hj hk hi hn hid
    obtain rfl := hs.same_entry hi hn hid
    have hap : Apart (.lease t) (.lease u) := hs.coherent.apart j k i _ _ hjk hj hk
    simp [Apart, Call.owns] at hap
  · intro k i o t hi hcompleted hk
    obtain ⟨o', hi', hcall⟩ := hs.coherent.call k i _ hk
    rw [hi] at hi'
    cases hi'
    have := (hcall rfl).2
    rw [hcompleted] at this
    simp at this

/-! ## Two acquires of one entry -/

/-- A continuation snapshot of the first run of a pod. -/
def snapshot : PooledTemplate where
  id := "t1"
  key := ⟨"pod-g0"⟩
  snapshotType := .continuation
  workloadIdentity := some ⟨"pod", 0⟩

/-- Its entry, not yet consumed, and two idle tasks. -/
def oneEntry : St := ⟨(), [⟨⟨"pod", 0⟩, true, some snapshot, false, false⟩], [none, none]⟩

/-- Both tasks have seen no marker and have the metadata. -/
theorem loaded_reachable : Reachable Init (Guarded CreatesNew next)
    ⟨(), oneEntry.objects, [some (0, .loaded snapshot), some (0, .loaded snapshot)]⟩ := by
  have h₀ : Reachable Init (Guarded CreatesNew next) oneEntry :=
    .init ⟨by decide, by simp [oneEntry], by simp [oneEntry]⟩
  have h₁ := h₀.step ⟨.task 0 0 .quiet, trivial, .idle rfl rfl (.find rfl)⟩
  have h₂ := h₁.step ⟨.task 0 0 .quiet, trivial, .call rfl rfl (.unmarked true fun _ => rfl)⟩
  have h₃ := h₂.step ⟨.task 0 0 .quiet, trivial,
    .call rfl rfl (.load (t := snapshot) rfl ⟨rfl, rfl⟩)⟩
  have h₄ := h₃.step ⟨.task 1 0 .quiet, trivial, .idle rfl rfl (.find rfl)⟩
  have h₅ := h₄.step ⟨.task 1 0 .quiet, trivial, .call rfl rfl (.unmarked true fun _ => rfl)⟩
  have h₆ := h₅.step ⟨.task 1 0 .quiet, trivial,
    .call rfl rfl (.load (t := snapshot) rfl ⟨rfl, rfl⟩)⟩
  exact h₆

/-- A crash that loses nothing on disk. -/
theorem restart_unchanged (n : ℕ) (s : St) :
    Restart n s ⟨(), s.objects, List.replicate n none⟩ := by
  refine ⟨rfl, ?_, rfl⟩
  intro i o o' hi hi'
  rw [hi] at hi'
  cases hi'
  exact ⟨rfl, rfl, rfl, rfl, fun h _ => h⟩

/-- One acquire gets the lease and completes, the other fails; after a restart an acquire finds the
entry consumed. -/
theorem acquire_single_use_completed :
    ∃ s : St, Reachable Init (Guarded CreatesNew next) s ∧
      s.objects.map (·.completed) = [true] ∧ s.tasks = [none, none] ∧ SingleUse s := by
  have h₁ := loaded_reachable.step ⟨.task 0 0 .creates, by rintro o ⟨⟩; rfl, .call rfl rfl .create⟩
  have h₂ := h₁.step ⟨.task 1 0 .quiet, trivial, .call rfl rfl .createErr⟩
  have h₃ := h₂.step ⟨.task 0 0 .quiet, trivial, .call rfl rfl .syncOk⟩
  have h₄ := h₃.step ⟨.task 0 0 .quiet, trivial, .call rfl rfl .complete⟩
  have h₅ := h₄.step ⟨.restart 2, trivial, restart_unchanged 2 _⟩
  have h₆ := h₅.step ⟨.task 1 0 .quiet, trivial, .idle rfl rfl (.find rfl)⟩
  have h₇ := h₆.step ⟨.task 1 0 .quiet, trivial, .call rfl rfl (.consumed rfl)⟩
  exact ⟨_, h₇, rfl, rfl, acquire_single_use _ h₇⟩

/-- Both acquires create the marker, and both return a lease. -/
theorem acquire_races_acquire :
    ∃ s : St, Reachable Init (AnyStep next) s ∧
      s.tasks[0]? = some (some (0, .lease snapshot)) ∧
      s.tasks[1]? = some (some (0, .lease snapshot)) ∧ ¬ SingleUse s := by
  have h₁ := loaded_reachable.unguarded.anyStep (.task 0 0 .creates) (.call rfl rfl .create)
  have h₂ := h₁.anyStep (.task 1 0 .creates) (.call rfl rfl .create)
  have h₃ := h₂.anyStep (.task 0 0 .quiet) (.call rfl rfl .syncOk)
  have h₄ := h₃.anyStep (.task 1 0 .quiet) (.call rfl rfl .syncOk)
  refine ⟨_, h₄, rfl, rfl, ?_⟩
  intro hsingle
  exact hsingle.1 0 1 0 0 _ _ snapshot snapshot (by decide) rfl rfl rfl rfl rfl

end Kuasar.ContinuationStore

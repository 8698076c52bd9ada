import Kuasar.Sandbox.References

/-!
# Sandbox.ReferenceCounts — every reference is counted once and given back once

In every run in which starts and ends of a sandbox do not collide (`Calm`), the
reference count of a template is the number of sandboxes that hold it plus what is
outstanding with starts, and nothing is given back twice (`references_counted`).
`delete_races_delete` is a run in which two ends collide.

A sandbox is in one stage at a time, and the stage says how its record and the
references it holds relate. Each move keeps this, and changes the count by what it
changes in the hands of the sandbox and of the call.
-/

namespace Kuasar.References

open Tla

/-! ## Stages -/

/-- What the stage of a sandbox says about its record. -/
structure SandboxInv (sb : Sandbox) : Prop where
  rest : sb.stage = .settled ∨ sb.stage = .ending →
    sb.registered = true ∧ sb.held = recordRefs sb.record
  starting : sb.stage = .starting → sb.registered = true ∧ sb.locked = true ∧ sb.held = []
  ended : sb.stage = .ended → sb.held = [] ∧ sb.dir = false ∧ sb.dumped = none
  dumped : ∀ r, sb.dumped = some r → recordRefs r = sb.held

namespace Call

/-- The call holds the lock of its sandbox. -/
@[simp] def locks : Call → Bool
  | .starting _ => true
  | .recorded _ => true
  | .pinned _ => true
  | .deleting _ => true
  | .emptied _ => true
  | .gave => true
  | .destroying _ => true
  | _ => false

/-- The call has read the record to end the sandbox. -/
@[simp] def ends : Call → Bool
  | .deleting _ => true
  | .emptied _ => true
  | .gave => true
  | .destroying _ => true
  | .stopped _ => true
  | .cleared _ => true
  | .removing => true
  | _ => false

end Call

def CallInv (sb : Sandbox) : Call → Prop
  | .leased _ => True
  | .starting _ => sb.locked = true ∧ sb.stage ≠ .starting
  | .recorded r => sb.locked = true ∧ sb.stage = .starting ∧ sb.record = r
  | .pinned r => sb.locked = true ∧ sb.stage = .starting ∧ sb.record = r ∧ sb.dir = true
  | .failing _ => True
  | .deleting d => sb.locked = true ∧ sb.stage = .ending ∧ derefs d = recordRefs sb.record
  | .emptied d => sb.locked = true ∧ sb.stage = .ending ∧ derefs d = recordRefs sb.record ∧
      sb.dir = false ∧ sb.dumped = none
  | .gave => sb.locked = true ∧ sb.stage = .ended
  | .destroying d => sb.locked = true ∧ sb.stage = .ending ∧ derefs d = recordRefs sb.record
  | .stopped d => sb.stage = .ending ∧ derefs d = recordRefs sb.record
  | .cleared d => sb.stage = .ending ∧ derefs d = recordRefs sb.record ∧
      sb.dir = false ∧ sb.dumped = none
  | .removing => sb.stage = .ended

/-- Two calls on one sandbox do not both hold its lock, and do not both end it. -/
def Apart (c d : Call) : Prop :=
  (c.locks && d.locks) = false ∧ (c.ends && d.ends) = false

/-- The guard, as a condition on the sandbox. -/
def CalmMove : Effect → Sandbox → Prop
  | .starts, sb => sb.record.templateSnapshotType = none ∧ sb.stage = .settled
  | .ends, sb => sb.stage = .settled
  | .quiet, _ => True

theorem CallInv.locked {sb : Sandbox} {c : Call} (h : CallInv sb c) (hl : c.locks = true) :
    sb.locked = true := by
  cases c <;> simp_all [CallInv]

theorem CallInv.stage {sb : Sandbox} {c : Call} (h : CallInv sb c) (hl : c.ends = true) :
    sb.stage = .ending ∨ sb.stage = .ended := by
  cases c <;> simp_all [CallInv]

theorem dump_eq (sb : Sandbox) :
    sb.dump = sb ∨ (sb.dir = true ∧ sb.dump = { sb with dumped := some sb.record }) := by
  unfold Sandbox.dump
  split
  · rename_i h
    exact Or.inr ⟨h, rfl⟩
  · exact Or.inl rfl

theorem maybeLost_eq (sb : Sandbox) (lost : Bool) :
    sb.maybeLost lost = sb ∨ sb.maybeLost lost = { sb with dumped := none } := by
  cases lost
  · exact Or.inl rfl
  · exact Or.inr rfl

theorem maybeLost_stage (sb : Sandbox) (lost : Bool) : (sb.maybeLost lost).stage = sb.stage := by
  rcases maybeLost_eq sb lost with h | h <;> rw [h]

variable {e : Effect} {u u' : Tally String} {sb sb' : Sandbox} {c c' : Option Call}

theorem SandboxInv.of_rest (hst : sb.stage = .settled ∨ sb.stage = .ending)
    (hreg : sb.registered = true) (hheld : sb.held = recordRefs sb.record)
    (hdump : ∀ r, sb.dumped = some r → recordRefs r = sb.held) : SandboxInv sb := by
  refine ⟨fun _ => ⟨hreg, hheld⟩, ?_, ?_, hdump⟩
  · intro h
    rw [h] at hst
    simp at hst
  · intro h
    rw [h] at hst
    simp at hst

theorem SandboxInv.of_starting (hst : sb.stage = .starting) (hreg : sb.registered = true)
    (hlock : sb.locked = true) (hheld : sb.held = [])
    (hdump : ∀ r, sb.dumped = some r → recordRefs r = sb.held) : SandboxInv sb := by
  refine ⟨?_, fun _ => ⟨hreg, hlock, hheld⟩, ?_, hdump⟩
  · intro h
    rw [hst] at h
    simp at h
  · intro h
    rw [hst] at h
    simp at h

theorem SandboxInv.of_ended (hst : sb.stage = .ended) (hheld : sb.held = [])
    (hdir : sb.dir = false) (hdump : sb.dumped = none) : SandboxInv sb := by
  refine ⟨?_, ?_, fun _ => ⟨hheld, hdir, hdump⟩, ?_⟩
  · intro h
    rw [hst] at h
    simp at h
  · intro h
    rw [hst] at h
    simp at h
  · intro r hr
    rw [hdump] at hr
    simp at hr

/-- A settled sandbox that holds nothing, with no template kind on record. -/
theorem SandboxInv.of_unrecorded (hst : sb.stage = .settled) (hreg : sb.registered = true)
    (hheld : sb.held = []) (hkind : sb.record.templateSnapshotType = none)
    (hdump : ∀ r, sb.dumped = some r → recordRefs r = sb.held) : SandboxInv sb :=
  .of_rest (Or.inl hst) hreg (hheld.trans (recordRefs_of_none hkind).symm) hdump

/-- The file being lost says nothing new. -/
theorem SandboxInv.maybeLost (hs : SandboxInv sb) (lost : Bool) :
    SandboxInv (sb.maybeLost lost) := by
  rcases maybeLost_eq sb lost with h | h
  · rw [h]
    exact hs
  · rw [h]
    refine ⟨hs.rest, hs.starting, ?_, by simp⟩
    intro hst
    exact ⟨(hs.ended hst).1, (hs.ended hst).2.1, rfl⟩

/-- A dump of a sandbox whose lock is free writes what the sandbox holds. -/
theorem SandboxInv.dump (hs : SandboxInv sb) (h : sb.locked = false) : SandboxInv sb.dump := by
  rcases dump_eq sb with heq | ⟨hdir, heq⟩
  · rw [heq]
    exact hs
  · rw [heq]
    have hrest : sb.stage = .settled ∨ sb.stage = .ending →
        SandboxInv { sb with dumped := some sb.record } := by
      intro hst
      obtain ⟨hreg, hheld⟩ := hs.rest hst
      refine .of_rest hst hreg hheld ?_
      intro r hr
      rw [← Option.some.inj hr]
      exact hheld.symm
    cases hst : sb.stage with
    | settled => exact hst ▸ hrest (Or.inl hst)
    | ending => exact hst ▸ hrest (Or.inr hst)
    | starting =>
      have := (hs.starting hst).2.1
      rw [h] at this
      simp at this
    | ended =>
      have := (hs.ended hst).2.1
      rw [hdir] at this
      simp at this

theorem diff_self (l : List String) : l.diff l = [] := by
  induction l with
  | nil => rfl
  | cons a l ih => rw [List.diff_cons, List.erase_cons_head, ih]

variable {d : RestoreMetadata.Disposal} {s : St}

/-- Giving back what the record says leaves nothing in hand. -/
theorem SandboxInv.diff_derefs (hs : SandboxInv sb) (hst : sb.stage = .ending)
    (hd : derefs d = recordRefs sb.record) : sb.held.diff (derefs d) = [] := by
  rw [hd, (hs.rest (Or.inr hst)).2]
  exact diff_self _

/-- A settled sandbox whose record names no template kind holds nothing. -/
theorem SandboxInv.unrecorded (hs : SandboxInv sb)
    (h : sb.record.templateSnapshotType = none ∧ sb.stage = .settled) :
    sb.registered = true ∧ sb.held = [] := by
  obtain ⟨hreg, hheld⟩ := hs.rest (Or.inl h.2)
  exact ⟨hreg, hheld.trans (recordRefs_of_none h.1)⟩

section

variable (h : Move e u sb c u' sb' c') (hok : CalmMove e sb) (hs : SandboxInv sb)
  (hc : ∀ d, c = some d → CallInv sb d)

include h hok hs hc

theorem Move.sandbox : SandboxInv sb' := by
  cases h with
  | lease r | leaseFail => exact ⟨hs.rest, hs.starting, hs.ended, hs.dumped⟩
  | lookupFail => exact hs
  | lockStart =>
    exact ⟨hs.rest, fun hst => ⟨(hs.starting hst).1, rfl, (hs.starting hst).2.2⟩, hs.ended,
      hs.dumped⟩
  | preFail =>
    obtain ⟨-, hne⟩ := hc _ rfl
    exact ⟨hs.rest, fun hst => absurd hst hne, hs.ended, hs.dumped⟩
  | record =>
    obtain ⟨hlock, -⟩ := hc _ rfl
    obtain ⟨hreg, hheld⟩ := hs.unrecorded hok
    exact .of_starting rfl hreg hlock hheld hs.dumped
  | restoreFail =>
    obtain ⟨-, hst, -⟩ := hc _ rfl
    obtain ⟨hreg, -, hheld⟩ := hs.starting hst
    exact .of_rest (Or.inl rfl) hreg hheld hs.dumped
  | restored =>
    obtain ⟨hlock, hst, -⟩ := hc _ rfl
    obtain ⟨hreg, -, hheld⟩ := hs.starting hst
    exact .of_starting hst hreg hlock hheld hs.dumped
  | postFail lost =>
    obtain ⟨-, hst, -⟩ := hc _ rfl
    have hs' := hs.maybeLost lost
    obtain ⟨hreg, -, hheld⟩ := hs'.starting ((maybeLost_stage sb lost).trans hst)
    exact .of_rest (Or.inl rfl) hreg hheld hs'.dumped
  | @finish _ _ r =>
    obtain ⟨-, hst, hrec, hdir⟩ := hc _ rfl
    obtain ⟨hreg, -, hheld⟩ := hs.starting hst
    have hdump : sb.dump = { sb with dumped := some sb.record } := by
      simp [Sandbox.dump, hdir]
    have hrefs : leaseRefs r ++ pinRefs r ++ sb.held = recordRefs sb.record := by
      rw [hheld, List.append_nil, leaseRefs_append_pinRefs, hrec]
    rw [hdump]
    refine .of_rest (Or.inl rfl) hreg hrefs ?_
    intro r' hr'
    have hr'' : some sb.record = some r' := hr'
    rw [← Option.some.inj hr'']
    exact hrefs.symm
  | coldStart mode reflink | publish tid =>
    obtain ⟨hreg, hheld⟩ := hs.unrecorded hok
    exact .of_unrecorded hok.2 hreg hheld hok.1 hs.dumped
  | unpublish =>
    obtain ⟨hreg, hheld⟩ := hs.unrecorded hok
    exact .of_rest (Or.inl hok.2) hreg hheld hs.dumped
  | dump hfree => exact hs.dump hfree
  | dumpFail _ lost => exact hs.maybeLost lost
  | lockDelete | lockDestroy =>
    obtain ⟨hreg, hheld⟩ := hs.rest (Or.inl hok)
    exact .of_rest (Or.inr rfl) hreg hheld hs.dumped
  | deleteFail lost =>
    obtain ⟨-, hst, -⟩ := hc _ rfl
    have hs' := hs.maybeLost lost
    obtain ⟨hreg, hheld⟩ := hs'.rest (Or.inr ((maybeLost_stage sb lost).trans hst))
    exact .of_rest (Or.inl rfl) hreg hheld hs'.dumped
  | deleteDir =>
    obtain ⟨-, hst, -⟩ := hc _ rfl
    obtain ⟨hreg, hheld⟩ := hs.rest (Or.inr hst)
    exact .of_rest (Or.inr hst) hreg hheld (by simp)
  | deleteGive =>
    obtain ⟨-, hst, hd, hdir, hdump⟩ := hc _ rfl
    exact .of_ended rfl (hs.diff_derefs hst hd) hdir hdump
  | deleteUnlock =>
    obtain ⟨-, hst⟩ := hc _ rfl
    obtain ⟨hheld, hdir, hdump⟩ := hs.ended hst
    exact .of_ended hst hheld hdir hdump
  | destroyFail =>
    obtain ⟨-, hst, -⟩ := hc _ rfl
    obtain ⟨hreg, hheld⟩ := hs.rest (Or.inr hst)
    exact .of_rest (Or.inl rfl) hreg hheld hs.dumped
  | destroyUnlock =>
    obtain ⟨-, hst, -⟩ := hc _ rfl
    obtain ⟨hreg, hheld⟩ := hs.rest (Or.inr hst)
    exact .of_rest (Or.inr hst) hreg hheld hs.dumped
  | cleanupFail lost =>
    obtain ⟨hst, -⟩ := hc _ rfl
    have hs' := hs.maybeLost lost
    obtain ⟨hreg, hheld⟩ := hs'.rest (Or.inr ((maybeLost_stage sb lost).trans hst))
    exact .of_rest (Or.inl rfl) hreg hheld hs'.dumped
  | destroyDir =>
    obtain ⟨hst, -⟩ := hc _ rfl
    obtain ⟨hreg, hheld⟩ := hs.rest (Or.inr hst)
    exact .of_rest (Or.inr hst) hreg hheld (by simp)
  | destroyGive =>
    obtain ⟨hst, hd, hdir, hdump⟩ := hc _ rfl
    exact .of_ended rfl (hs.diff_derefs hst hd) hdir hdump
  | remove =>
    have hst : sb.stage = .ended := hc _ rfl
    obtain ⟨hheld, hdir, hdump⟩ := hs.ended hst
    exact .of_ended hst hheld hdir hdump

theorem Move.call {d : Call} (hd : c' = some d) : CallInv sb' d := by
  cases h with
  | lease | lookupFail | preFail | restoreFail | postFail => cases hd; trivial
  | lockStart hfree =>
    cases hd
    refine ⟨rfl, fun hst => ?_⟩
    have := (hs.starting hst).2.1
    rw [hfree] at this
    simp at this
  | record =>
    cases hd
    obtain ⟨hlock, -⟩ := hc _ rfl
    exact ⟨hlock, rfl, rfl⟩
  | restored =>
    cases hd
    obtain ⟨hlock, hst, hrec⟩ := hc _ rfl
    exact ⟨hlock, hst, hrec, rfl⟩
  | lockDelete =>
    cases hd
    exact ⟨rfl, rfl, derefs_onDelete _⟩
  | deleteDir =>
    cases hd
    obtain ⟨hlock, hst, hrefs⟩ := hc _ rfl
    exact ⟨hlock, hst, hrefs, rfl, rfl⟩
  | deleteGive =>
    cases hd
    obtain ⟨hlock, -⟩ := hc _ rfl
    exact ⟨hlock, rfl⟩
  | deleteUnlock =>
    cases hd
    obtain ⟨-, hst⟩ := hc _ rfl
    exact hst
  | lockDestroy =>
    cases hd
    exact ⟨rfl, rfl, derefs_onDestroy _⟩
  | destroyUnlock =>
    cases hd
    obtain ⟨-, hst, hrefs⟩ := hc _ rfl
    exact ⟨hst, hrefs⟩
  | destroyDir =>
    cases hd
    obtain ⟨hst, hrefs⟩ := hc _ rfl
    exact ⟨hst, hrefs, rfl, rfl⟩
  | destroyGive =>
    cases hd
    rfl
  | _ => simp at hd

end

/-! ## The other calls on the sandbox -/

variable {m : Call}

theorem Apart.symm {c d : Call} (h : Apart c d) : Apart d c := by
  refine ⟨?_, ?_⟩
  · rw [Bool.and_comm]
    exact h.1
  · rw [Bool.and_comm]
    exact h.2

theorem Apart.locks {c : Call} (h : Apart c m) (hl : c.locks = true) : m.locks = false := by
  have := h.1
  rwa [hl, Bool.true_and] at this

theorem Apart.ends {c : Call} (h : Apart c m) (he : c.ends = true) : m.ends = false := by
  have := h.2
  rwa [he, Bool.true_and] at this

theorem CallInv.locks_false (hm : CallInv sb m) (h : sb.locked = false) : m.locks = false := by
  by_contra hl
  have := hm.locked (by simpa using hl)
  rw [h] at this
  simp at this

theorem CallInv.ends_false (hm : CallInv sb m) (h : sb.stage = .settled ∨ sb.stage = .starting) :
    m.ends = false := by
  by_contra he
  have := hm.stage (by simpa using he)
  rcases h with h | h <;> rw [h] at this <;> simp at this

/-- A call that neither holds the lock nor ends the sandbox relies on nothing. -/
theorem callInv_of_free (hl : m.locks = false) (he : m.ends = false) : CallInv sb m := by
  cases m <;> trivial

/-- A call that does not end the sandbox relies on the lock and on no start being under
way. -/
theorem callInv_of_unstarted (hm : CallInv sb m) (he : m.ends = false)
    (hst : sb.stage ≠ .starting) (hst' : sb'.stage ≠ .starting)
    (hlock : sb'.locked = sb.locked) : CallInv sb' m := by
  cases m with
  | leased | failing => trivial
  | starting => exact ⟨hlock.trans hm.1, hst'⟩
  | recorded | pinned => exact absurd hm.2.1 hst
  | _ => cases he

/-- A move that leaves what the call `m` relies on as it was. -/
structure Keeps (m : Call) (sb sb' : Sandbox) : Prop where
  record : sb'.record = sb.record
  stage : sb'.stage = sb.stage
  locked : m.locks = true → sb.locked = true → sb'.locked = true
  dir : sb'.dir = sb.dir
  dumped : sb.dir = false → sb.dumped = none → sb'.dumped = none

theorem CallInv.kept (hm : CallInv sb m) (h : Keeps m sb sb') : CallInv sb' m := by
  obtain ⟨hrec, hst, hlock, hdir, hdump⟩ := h
  cases m with
  | leased | failing => trivial
  | starting => exact ⟨hlock rfl hm.1, by rw [hst]; exact hm.2⟩
  | recorded => exact ⟨hlock rfl hm.1, hst.trans hm.2.1, hrec.trans hm.2.2⟩
  | pinned => exact ⟨hlock rfl hm.1, hst.trans hm.2.1, hrec.trans hm.2.2.1, hdir.trans hm.2.2.2⟩
  | deleting | destroying => exact ⟨hlock rfl hm.1, hst.trans hm.2.1, by rw [hrec]; exact hm.2.2⟩
  | emptied =>
    obtain ⟨hl, hs, hrefs, hd, hf⟩ := hm
    exact ⟨hlock rfl hl, hst.trans hs, by rw [hrec]; exact hrefs, hdir.trans hd, hdump hd hf⟩
  | gave => exact ⟨hlock rfl hm.1, hst.trans hm.2⟩
  | stopped => exact ⟨hst.trans hm.1, by rw [hrec]; exact hm.2⟩
  | cleared =>
    obtain ⟨hs, hrefs, hd, hf⟩ := hm
    exact ⟨hst.trans hs, by rw [hrec]; exact hrefs, hdir.trans hd, hdump hd hf⟩
  | removing => exact hst.trans hm

theorem Keeps.maybeLost (sb : Sandbox) (lost : Bool) : Keeps m sb (sb.maybeLost lost) := by
  rcases maybeLost_eq sb lost with h | h <;> rw [h]
  · exact ⟨rfl, rfl, fun _ => id, rfl, fun _ => id⟩
  · exact ⟨rfl, rfl, fun _ => id, rfl, fun _ _ => rfl⟩

theorem Keeps.dump (sb : Sandbox) : Keeps m sb sb.dump := by
  rcases dump_eq sb with h | ⟨hdir, h⟩ <;> rw [h]
  · exact ⟨rfl, rfl, fun _ => id, rfl, fun _ => id⟩
  · exact ⟨rfl, rfl, fun _ => id, rfl, fun hf => by simp [hdir] at hf⟩

section

variable (h : Move e u sb c u' sb' c') (hok : CalmMove e sb)
  (hc : ∀ d, c = some d → CallInv sb d ∧ Apart d m) (hm : CallInv sb m)

include h hok hc hm

/-- A move leaves every other call on the sandbox in step with it. -/
theorem Move.other : CallInv sb' m := by
  cases h with
  | lease | lookupFail | leaseFail | remove =>
    exact hm.kept ⟨rfl, rfl, fun _ => id, rfl, fun _ => id⟩
  | lockStart => exact hm.kept ⟨rfl, rfl, fun _ _ => rfl, rfl, fun _ => id⟩
  | preFail | deleteUnlock | destroyUnlock =>
    have hl := (hc _ rfl).2.locks rfl
    exact hm.kept ⟨rfl, rfl, fun hl' => absurd (hl.symm.trans hl') Bool.false_ne_true, rfl,
      fun _ => id⟩
  | record =>
    exact callInv_of_free ((hc _ rfl).2.locks rfl) (hm.ends_false (Or.inl hok.2))
  | restoreFail | restored | postFail | finish =>
    exact callInv_of_free ((hc _ rfl).2.locks rfl) (hm.ends_false (Or.inr (hc _ rfl).1.2.1))
  | coldStart _ _ hfree | publish _ hfree | unpublish hfree =>
    exact callInv_of_free (hm.locks_false hfree) (hm.ends_false (Or.inl hok.2))
  | dump => exact hm.kept (Keeps.dump sb)
  | dumpFail _ lost => exact hm.kept (Keeps.maybeLost sb lost)
  | lockDelete hfree | lockDestroy hfree =>
    exact callInv_of_free (hm.locks_false hfree) (hm.ends_false (Or.inl hok))
  | deleteFail | deleteDir | deleteGive | destroyFail =>
    exact callInv_of_free ((hc _ rfl).2.locks rfl) ((hc _ rfl).2.ends rfl)
  | cleanupFail lost =>
    obtain ⟨⟨hst, -⟩, hap⟩ := hc _ rfl
    refine callInv_of_unstarted hm (hap.ends rfl) (by simp [hst]) (by simp) ?_
    rcases maybeLost_eq sb lost with h | h <;> rw [h]
  | destroyDir =>
    obtain ⟨⟨hst, -⟩, hap⟩ := hc _ rfl
    exact callInv_of_unstarted hm (hap.ends rfl) (by simp [hst]) (by simp [hst]) rfl
  | destroyGive =>
    obtain ⟨⟨hst, -⟩, hap⟩ := hc _ rfl
    exact callInv_of_unstarted hm (hap.ends rfl) (by simp [hst]) (by simp) rfl

/-- A move leaves its call apart from every other call on the sandbox. -/
theorem Move.apart {d : Call} (hd : c' = some d) : Apart d m := by
  cases h with
  | lease | lookupFail | preFail | restoreFail | postFail => cases hd; exact ⟨rfl, rfl⟩
  | lockStart hfree =>
    cases hd
    exact ⟨hm.locks_false hfree, rfl⟩
  | record | restored =>
    cases hd
    exact ⟨(hc _ rfl).2.locks rfl, rfl⟩
  | lockDelete hfree | lockDestroy hfree =>
    cases hd
    exact ⟨hm.locks_false hfree, hm.ends_false (Or.inl hok)⟩
  | deleteDir | deleteGive =>
    cases hd
    exact ⟨(hc _ rfl).2.locks rfl, (hc _ rfl).2.ends rfl⟩
  | deleteUnlock | destroyUnlock | destroyDir | destroyGive =>
    cases hd
    exact ⟨rfl, (hc _ rfl).2.ends rfl⟩
  | _ => simp at hd

end

/-! ## What a move does to the count -/

/-- The references on `T` that a call answers for. -/
def owes (T : String) (c : Call) : ℕ := c.outstanding.count T

/-- Between the hands of the sandbox and of the call, `a` references on `T` were taken and
`b` given back, and the count moved with them. -/
structure Flow (T : String) (u : Tally String) (sb : Sandbox) (c : Option Call)
    (u' : Tally String) (sb' : Sandbox) (c' : Option Call) (a b : ℕ) : Prop where
  count : u'.count T = u.count T + a - b
  hands : sb'.held.count T + callWeight (owes T) c' + b =
    sb.held.count T + callWeight (owes T) c + a
  taken : sb'.taken.count T = sb.taken.count T + a
  dropped : sb'.dropped.count T = sb.dropped.count T + b

/-- A move that touches no reference. -/
theorem Flow.idle {T : String} (hu : u' = u) (hheld : sb'.held = sb.held)
    (howes : callWeight (owes T) c' = callWeight (owes T) c) (ht : sb'.taken = sb.taken)
    (hd : sb'.dropped = sb.dropped) : Flow T u sb c u' sb' c' 0 0 := by
  refine ⟨?_, ?_, ?_, ?_⟩
  · rw [hu]
    rfl
  · rw [hheld, howes]
  · rw [ht]
    rfl
  · rw [hd]
    rfl

/-- A delete or destroy gives back what its sandbox holds, all of it. -/
theorem CallInv.gives (hs : SandboxInv sb) (h : CallInv sb (.emptied d) ∨ CallInv sb (.cleared d)) :
    derefs d = sb.held := by
  rcases h with ⟨-, hst, hrefs, -⟩ | ⟨hst, hrefs, -⟩
  · exact hrefs.trans (hs.rest (Or.inr hst)).2.symm
  · exact hrefs.trans (hs.rest (Or.inr hst)).2.symm

theorem Flow.give {T : String} (h : derefs d = sb.held)
    (hheld : sb'.held = sb.held.diff (derefs d)) (hc : callWeight (owes T) c = 0)
    (hc' : callWeight (owes T) c' = 0) (ht : sb'.taken = sb.taken)
    (hd : sb'.dropped = derefs d ++ sb.dropped) :
    Flow T u sb c (dropRefs u (derefs d)) sb' c' 0 ((derefs d).count T) := by
  refine ⟨?_, ?_, ?_, ?_⟩
  · rw [count_dropRefs]
    rfl
  · rw [hheld, h, diff_self, hc, hc']
    simp
  · rw [ht]
    rfl
  · rw [hd, List.count_append]
    omega

/-- Every move moves the count with the references it takes and gives back. -/
theorem Move.flow (h : Move e u sb c u' sb' c') (hs : SandboxInv sb)
    (hc : ∀ d, c = some d → CallInv sb d) (T : String) : ∃ a b, Flow T u sb c u' sb' c' a b := by
  cases h with
  | lease r =>
    refine ⟨(leaseRefs r).count T, 0, ?_, ?_, ?_, rfl⟩
    · rw [count_takeRefs]
      rfl
    · simp only [callWeight, owes, Call.outstanding]
      omega
    · rw [List.count_append]
      omega
  | @restored _ _ r =>
    refine ⟨(pinRefs r).count T, 0, ?_, ?_, ?_, rfl⟩
    · rw [count_takeRefs]
      rfl
    · simp only [callWeight, owes, Call.outstanding, List.count_append]
      omega
    · rw [List.count_append]
      omega
  | @postFail _ _ r lost =>
    have hheld : (sb.maybeLost lost).held = sb.held := by
      rcases maybeLost_eq sb lost with h | h <;> rw [h]
    have htaken : (sb.maybeLost lost).taken = sb.taken := by
      rcases maybeLost_eq sb lost with h | h <;> rw [h]
    refine ⟨0, (pinRefs r).count T, ?_, ?_, ?_, ?_⟩
    · rw [count_dropRefs]
      rfl
    · simp only [callWeight, owes, Call.outstanding, List.count_append, hheld]
      omega
    · rw [htaken]
      rfl
    · rw [List.count_append]
      omega
  | @finish _ _ r =>
    have htaken : sb.dump.taken = sb.taken := by
      rcases dump_eq sb with h | ⟨-, h⟩ <;> rw [h]
    have hdropped : sb.dump.dropped = sb.dropped := by
      rcases dump_eq sb with h | ⟨-, h⟩ <;> rw [h]
    refine ⟨0, 0, rfl, ?_, by rw [htaken]; rfl, by rw [hdropped]; rfl⟩
    simp only [callWeight, owes, Call.outstanding, List.count_append]
    omega
  | @leaseFail _ _ r =>
    refine ⟨0, (leaseRefs r).count T, ?_, ?_, rfl, ?_⟩
    · rw [count_dropRefs]
      rfl
    · simp only [callWeight, owes, Call.outstanding]
      omega
    · rw [List.count_append]
      omega
  | deleteGive =>
    exact ⟨0, _, .give (CallInv.gives hs (Or.inl (hc _ rfl))) rfl rfl rfl rfl rfl⟩
  | destroyGive =>
    exact ⟨0, _, .give (CallInv.gives hs (Or.inr (hc _ rfl))) rfl rfl rfl rfl rfl⟩
  | dump =>
    rcases dump_eq sb with h | ⟨-, h⟩ <;> rw [h] <;> exact ⟨0, 0, .idle rfl rfl rfl rfl rfl⟩
  | dumpFail _ lost | deleteFail lost | cleanupFail lost =>
    rcases maybeLost_eq sb lost with h | h <;> rw [h] <;> exact ⟨0, 0, .idle rfl rfl rfl rfl rfl⟩
  | _ => exact ⟨0, 0, .idle rfl rfl rfl rfl rfl⟩

/-! ## Runs -/

/-- The references on `T` outstanding with the calls on sandbox `i`. -/
def outstandingOn (s : St) (i : ℕ) (T : String) : ℕ :=
  (s.tasks.map (taskWeightOn (owes T) i)).sum

/-- Stages, records and calls agree, and every reference is in somebody's hands. -/
structure Inv (s : St) : Prop where
  coherent : Coherent SandboxInv CallInv Apart s
  counted : ∀ T, s.shared.count T = (s.objects.map fun sb => sb.held.count T).sum + outstanding s T
  balanced : ∀ i sb, s.objects[i]? = some sb → ∀ T,
    sb.taken.count T = sb.dropped.count T + sb.held.count T + outstandingOn s i T

theorem fresh_inv (h : sb.fresh) : SandboxInv sb := by
  obtain ⟨hreg, -, hst, hheld, -, -, hdump⟩ := h
  refine .of_rest (Or.inl hst) hreg hheld ?_
  intro r hr
  rw [hheld, recordRefs, hdump r hr]

/-- With no call under way, the invariant is about the sandboxes alone. -/
theorem init_inv (s : St) (h : Init s) : Inv s := by
  obtain ⟨hfresh, hidle, hcount⟩ := h
  refine ⟨Coherent.of_idle hidle ?_, ?_, ?_⟩
  · intro i sb hi
    exact fresh_inv (hfresh sb (List.mem_of_getElem? hi))
  · intro T
    have hzero : outstanding s T = 0 := sum_weight_idle rfl hidle
    rw [hcount T, hzero]
    rfl
  · intro i sb hi T
    obtain ⟨-, -, -, -, ht, hd, -⟩ := hfresh sb (List.mem_of_getElem? hi)
    have hzero : outstandingOn s i T = 0 := sum_weight_idle rfl hidle
    rw [ht, hd, hzero]
    simp

/-- A move of a call keeps the invariant. -/
theorem task_inv {k i : ℕ} {s' : St} (hok : Calm (.task k i e) s) (h : ObjectStep Move k i e s s')
    (hs : Inv s) : Inv s' := by
  have hcalm : ∀ sb, s.objects[i]? = some sb → CalmMove e sb := by
    intro sb hi
    cases e with
    | quiet => trivial
    | starts | ends => exact hok sb hi
  refine ⟨?_, ?_, ?_⟩
  · refine hs.coherent.step CalmMove h hcalm ?_ ?_
    · intro u o c u' o' c' hmove hok ho hc
      exact ⟨hmove.sandbox hok ho hc, fun d hd => hmove.call hok ho hc hd⟩
    · intro u o c u' o' c' m hmove hok _ hc hm
      have hc' : ∀ d, c = some d → CallInv o d ∧ Apart d m :=
        fun d hd => ⟨(hc d hd).1, (hc d hd).2.1⟩
      refine ⟨hmove.other hok hc' hm, fun d hd => ?_⟩
      have := hmove.apart hok hc' hm hd
      exact ⟨this, this.symm⟩
  · intro T
    obtain ⟨o, o', c, c', hk, hi, -, hmove, hsum, htasks, -⟩ :=
      h.weights (fun sb => sb.held.count T) (owes T)
    obtain ⟨a, b, hflow⟩ := hmove.flow (hs.coherent.object i o hi) (hs.coherent.callOf hk hi) T
    have hcount := hflow.count
    have hhands := hflow.hands
    have hT : s.shared.count T = (s.objects.map fun sb => sb.held.count T).sum +
      (s.tasks.map (taskWeight (owes T))).sum := hs.counted T
    show s'.shared.count T = (s'.objects.map fun sb => sb.held.count T).sum +
      (s'.tasks.map (taskWeight (owes T))).sum
    omega
  · intro j sb hj T
    obtain ⟨o, o', c, c', hk, hi, hi', hmove, -, -, hon, hrest⟩ :=
      h.weights (fun sb => sb.held.count T) (owes T)
    by_cases hji : j = i
    · subst hji
      rw [hi'] at hj
      cases hj
      obtain ⟨a, b, hflow⟩ := hmove.flow (hs.coherent.object j o hi) (hs.coherent.callOf hk hi) T
      have hhands := hflow.hands
      have htaken := hflow.taken
      have hdropped := hflow.dropped
      have hT := hs.balanced j o hi T
      unfold outstandingOn at hT ⊢
      omega
    · obtain ⟨hobj, hsum⟩ := hrest j hji
      rw [hobj] at hj
      rw [hs.balanced j sb hj T, outstandingOn, outstandingOn, hsum]

/-- What `rebuild_active_refs` counts, sandbox by sandbox. -/
theorem count_rebuildActiveRefs (rs : List RestoreMetadata) (T : String) :
    (rebuildActiveRefs rs).count T = (rs.map fun r => (recordRefs r).count T).sum := by
  have hsplit : ∀ f g : RestoreMetadata → Option String,
      (rs.filterMap f ++ rs.filterMap g).count T =
        (rs.map fun r => ((f r).toList ++ (g r).toList).count T).sum := by
    intro f g
    induction rs with
    | nil => rfl
    | cons r rs ih =>
      rw [List.count_append] at ih
      rw [List.map_cons, List.sum_cons, ← ih, List.count_append, List.count_append,
        List.filterMap_cons, List.filterMap_cons]
      cases f r <;> cases g r <;>
        simp only [Option.toList, List.count_cons, List.count_nil] <;> omega
  rw [rebuildActiveRefs, count_takeRefs, hsplit]
  have hzero : (Tally.empty : Tally String).count T = 0 := rfl
  rw [hzero, Nat.zero_add]
  congr 1
  refine List.map_congr_left fun r _ => ?_
  exact congrArg (List.count T) (rebuiltRefs_eq r)

theorem recover_fresh (r : RestoreMetadata) : (recover r).fresh := by
  refine ⟨rfl, rfl, rfl, rebuiltRefs_eq r, rfl, rfl, ?_⟩
  intro r' hr'
  cases hr'
  rfl

/-- A restart comes to an initial state. -/
theorem init_recovered (rs : List RestoreMetadata) (n : ℕ) :
    Init ⟨rebuildActiveRefs rs, rs.map recover, List.replicate n none⟩ := by
  refine ⟨?_, fun l => List.eq_of_mem_replicate, ?_⟩
  · intro sb hsb
    obtain ⟨r, -, rfl⟩ := List.mem_map.mp hsb
    exact recover_fresh r
  · intro T
    rw [count_rebuildActiveRefs, List.map_map]
    congr 1
    refine List.map_congr_left fun r _ => ?_
    exact congrArg (List.count T) (rebuiltRefs_eq r).symm

theorem restart_inv {survivors : List Sandbox} {n : ℕ} {s' : St} (h : Restart survivors n s s') :
    Inv s' := by
  obtain ⟨-, -, rfl⟩ := h
  exact init_inv _ (init_recovered _ n)

theorem step_inv (l : Label) (s s' : St) (hok : Calm l s) (h : next l s s') (hs : Inv s) :
    Inv s' := by
  cases l with
  | task k i e => exact task_inv hok h hs
  | restart survivors n => exact restart_inv h

theorem reachable_inv (h : Reachable Init (Guarded Calm next) s) : Inv s :=
  h.guarded_invariant init_inv step_inv

/-! ## The count -/

/-- The sandbox is in the map, its record names `T`, and the reference is still held. -/
def Sandbox.holds (sb : Sandbox) (T : String) : Bool :=
  sb.registered && sb.record.reference == some T && sb.held.contains T

/-- The count of every template is the number of sandboxes that hold a recorded reference
on it plus what is outstanding with starts. -/
def Counted : StatePred St := fun s =>
  ∀ T, s.shared.count T = s.objects.countP (·.holds T) + outstanding s T

/-- For no sandbox were more references given back than taken. -/
def AtMostOnce : StatePred St := fun s =>
  ∀ sb ∈ s.objects, ∀ T, sb.dropped.count T ≤ sb.taken.count T

theorem count_recordRefs (r : RestoreMetadata) (T : String) :
    (recordRefs r).count T = if r.reference = some T then 1 else 0 := by
  unfold recordRefs
  cases r.reference with
  | none => rfl
  | some id => simp [List.count_cons]

/-- What a sandbox holds is what its record says, as long as it holds anything. -/
theorem SandboxInv.count_held (hs : SandboxInv sb) (T : String) :
    sb.held.count T = if sb.holds T then 1 else 0 := by
  have hempty : sb.held = [] → sb.held.count T = if sb.holds T then 1 else 0 := by
    intro h
    simp [Sandbox.holds, h]
  have hrest : sb.registered = true ∧ sb.held = recordRefs sb.record →
      sb.held.count T = if sb.holds T then 1 else 0 := by
    rintro ⟨hreg, hheld⟩
    rw [Sandbox.holds, hreg, hheld, count_recordRefs]
    by_cases h : sb.record.reference = some T
    · simp [h, recordRefs]
    · simp [h]
  cases hst : sb.stage with
  | settled => exact hrest (hs.rest (Or.inl hst))
  | ending => exact hrest (hs.rest (Or.inr hst))
  | starting => exact hempty (hs.starting hst).2.2
  | ended => exact hempty (hs.ended hst).1

theorem sum_held_eq_countP {sbs : List Sandbox} (h : ∀ sb ∈ sbs, SandboxInv sb) (T : String) :
    (sbs.map fun sb => sb.held.count T).sum = sbs.countP (·.holds T) := by
  induction sbs with
  | nil => rfl
  | cons sb sbs ih =>
    have hsb := h sb List.mem_cons_self
    have hsbs := ih fun sb' h' => h sb' (List.mem_cons_of_mem _ h')
    rw [List.map_cons, List.sum_cons, List.countP_cons, hsbs, hsb.count_held T]
    omega

theorem Inv.object (hs : Inv s) (h : sb ∈ s.objects) : SandboxInv sb := by
  obtain ⟨i, hi⟩ := List.mem_iff_getElem?.mp h
  exact hs.coherent.object i sb hi

/-- In every calm run every reference is counted once and given back at most once. -/
theorem references_counted (s : St) (h : Reachable Init (Guarded Calm next) s) :
    Counted s ∧ AtMostOnce s := by
  have hs := reachable_inv h
  refine ⟨?_, ?_⟩
  · intro T
    rw [hs.counted T, sum_held_eq_countP fun sb hsb => hs.object hsb]
  · intro sb hsb T
    obtain ⟨i, hi⟩ := List.mem_iff_getElem?.mp hsb
    have := hs.balanced i sb hi T
    omega

/-! ## A reference that is given back twice -/

/-- The record of a sandbox forked from the shared template `t1`. -/
def forkedRecord : RestoreMetadata where
  templateId := some "t1"
  templateSnapshotType := some .warmFork
  leaseMode := some .shared

/-- Two sandboxes forked from one template, and two idle tasks. -/
def twoForks : St :=
  ⟨rebuildActiveRefs [forkedRecord, forkedRecord], [recover forkedRecord, recover forkedRecord],
    [none, none]⟩

theorem twoForks_init : Init twoForks := init_recovered [forkedRecord, forkedRecord] 2

/-- A sandbox is started from `t1`, and another one that was forked from it is deleted. -/
theorem started_and_deleted :
    ∃ s : St, Reachable Init (Guarded Calm next) s ∧ s.shared.count "t1" = 1 ∧
      ∃ sb gone, s.objects = [sb, gone] ∧ sb.held = ["t1"] ∧ sb.dumped = some forkedRecord ∧
        gone.dropped = ["t1"] ∧ gone.registered = false := by
  have h₀ : Reachable Init (Guarded Calm next)
      (⟨rebuildActiveRefs [{}, forkedRecord], [recover {}, recover forkedRecord],
        [none, none]⟩ : St) := .init (init_recovered [{}, forkedRecord] 2)
  have h₁ := h₀.step ⟨.task 0 0 .quiet, trivial, .idle rfl rfl (.lease forkedRecord)⟩
  have h₂ := h₁.step ⟨.task 0 0 .quiet, trivial, .call rfl rfl (.lockStart rfl)⟩
  have h₃ := h₂.step ⟨.task 0 0 .starts, fun _ h => Option.some.inj h ▸ ⟨rfl, rfl⟩,
    .call rfl rfl .record⟩
  have h₄ := h₃.step ⟨.task 0 0 .quiet, trivial, .call rfl rfl .restored⟩
  have h₅ := h₄.step ⟨.task 0 0 .quiet, trivial, .call rfl rfl .finish⟩
  have h₆ := h₅.step ⟨.task 1 1 .ends, fun _ h => Option.some.inj h ▸ rfl,
    .idle rfl rfl (.lockDelete rfl)⟩
  have h₇ := h₆.step ⟨.task 1 1 .quiet, trivial, .call rfl rfl .deleteDir⟩
  have h₈ := h₇.step ⟨.task 1 1 .quiet, trivial, .call rfl rfl .deleteGive⟩
  have h₉ := h₈.step ⟨.task 1 1 .quiet, trivial, .call rfl rfl .deleteUnlock⟩
  have h₁₀ := h₉.step ⟨.task 1 1 .quiet, trivial, .call rfl rfl .remove⟩
  exact ⟨_, h₁₀, rfl, _, _, rfl, rfl, rfl, rfl, rfl⟩

theorem references_counted_deleted :
    ∃ s : St, s.shared.count "t1" = 1 ∧ (∃ sb ∈ s.objects, sb.dropped = ["t1"]) ∧ Counted s ∧
      AtMostOnce s := by
  obtain ⟨s, hs, hcount, sb, gone, hobjects, -, -, hdropped, -⟩ := started_and_deleted
  refine ⟨s, hcount, ⟨gone, ?_, hdropped⟩, references_counted s hs⟩
  rw [hobjects]
  exact List.mem_cons_of_mem sb List.mem_cons_self

/-- Two deletes that found the same sandbox run one after the other. The second reads the
record the first left, and gives back the reference of the other sandbox. -/
theorem delete_races_delete :
    ∃ s : St, Reachable Init (AnyStep next) s ∧ s.shared.count "t1" = 0 ∧
      s.objects.countP (·.holds "t1") = 1 ∧ ¬ Counted s ∧ ¬ AtMostOnce s := by
  have h₀ : Reachable Init (AnyStep next) twoForks := .init twoForks_init
  have h₁ := h₀.anyStep (.task 0 0 .ends) (.idle rfl rfl (.lockDelete rfl))
  have h₂ := h₁.anyStep (.task 0 0 .quiet) (.call rfl rfl .deleteDir)
  have h₃ := h₂.anyStep (.task 0 0 .quiet) (.call rfl rfl .deleteGive)
  have h₄ := h₃.anyStep (.task 0 0 .quiet) (.call rfl rfl .deleteUnlock)
  have h₅ := h₄.anyStep (.task 1 0 .ends) (.idle rfl rfl (.lockDelete rfl))
  have h₆ := h₅.anyStep (.task 1 0 .quiet) (.call rfl rfl .deleteDir)
  have h₇ := h₆.anyStep (.task 1 0 .quiet) (.call rfl rfl .deleteGive)
  refine ⟨_, h₇, rfl, rfl, ?_, ?_⟩
  · intro hcount
    exact absurd (hcount "t1") (by decide)
  · intro hmost
    exact absurd (hmost _ List.mem_cons_self "t1") (by decide)

end Kuasar.References

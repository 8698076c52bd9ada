import Kuasar.Sandbox.ReferenceCounts

/-!
# Sandbox.Recovery — a restart rebuilds what the survivors held

The dump of a sandbox is written at other moments than the references are taken and
given back. In a calm run every readable dump nevertheless records what its sandbox
holds, at any moment the process may die. So recovery rebuilds the references of the
survivors, no more and no less, and from then on they stay as rebuilt until a delete or
destroy gives back exactly those (`recovery_exact`).

A start on a sandbox that was already restored breaks this: the record of the earlier
template is overwritten, and nothing remembers its reference
(`restart_after_second_start`).
-/

namespace Kuasar.References

open Tla

variable {e : Effect} {u u' : Tally String} {sb sb' : Sandbox} {c c' : Option Call}

/-- The sandboxes of `s'` hold what `survivors` held, and the count is what they hold. -/
def Rebuilt (survivors : List Sandbox) : StatePred St := fun s' =>
  s'.objects.map (·.held) = survivors.map (·.held) ∧
    ∀ T, s'.shared.count T = (survivors.map fun sb => sb.held.count T).sum

/-- Every delete and destroy that is about to give something back gives what its sandbox
holds. -/
def GivesHeld : StatePred St := fun s =>
  ∀ (k i : ℕ) (d : RestoreMetadata.Disposal),
    s.tasks[k]? = some (some (i, .emptied d)) ∨ s.tasks[k]? = some (some (i, .cleared d)) →
    ∃ sb, s.objects[i]? = some sb ∧ derefs d = sb.held

/-- The references `refs` were given back, each once. -/
def GivenBack (refs : List String) (u : Tally String) (sb : Sandbox) (u' : Tally String)
    (sb' : Sandbox) : Prop :=
  u' = dropRefs u refs ∧ sb'.held = [] ∧ sb'.dropped = refs ++ sb.dropped

/-- What a sandbox holds, it holds until all of it is given back. -/
def HeldUntilGiven (s s' : St) : Prop :=
  ∀ (i : ℕ) (sb sb' : Sandbox), s.objects[i]? = some sb → s'.objects[i]? = some sb' → sb.held ≠ [] →
    sb'.held = sb.held ∨ GivenBack sb.held s.shared sb s'.shared sb'

/-! ## The dumps -/

/-- The readable dumps of the survivors record what they hold. -/
theorem dumps_refs {survivors : List Sandbox} (hinv : ∀ sb ∈ survivors, SandboxInv sb)
    (hdump : ∀ sb ∈ survivors, sb.dumped ≠ none) :
    (dumps survivors).map recordRefs = survivors.map (·.held) := by
  unfold dumps
  induction survivors with
  | nil => rfl
  | cons sb sbs ih =>
    have hsbs := ih (fun x hx => hinv x (List.mem_cons_of_mem _ hx))
      (fun x hx => hdump x (List.mem_cons_of_mem _ hx))
    cases hr : sb.dumped with
    | none => exact absurd hr (hdump sb List.mem_cons_self)
    | some r =>
      have hheld := (hinv sb List.mem_cons_self).dumped r hr
      rw [List.filterMap_cons_some hr, List.map_cons, List.map_cons, hsbs, hheld]

theorem restart_rebuilt {survivors : List Sandbox} {n : ℕ} {s s' : St} (hs : Inv s)
    (h : Restart survivors n s s') : Rebuilt survivors s' := by
  obtain ⟨hsub, hdump, rfl⟩ := h
  have hrefs : (dumps survivors).map recordRefs = survivors.map (·.held) :=
    dumps_refs (fun sb hsb => hs.object (hsub.subset hsb)) hdump
  refine ⟨?_, ?_⟩
  · rw [← hrefs, List.map_map]
    refine List.map_congr_left fun r _ => ?_
    exact rebuiltRefs_eq r
  · intro T
    calc (rebuildActiveRefs (dumps survivors)).count T
        = (((dumps survivors).map recordRefs).map (List.count T)).sum := by
          rw [count_rebuildActiveRefs, List.map_map]
          rfl
      _ = (survivors.map fun sb => sb.held.count T).sum := by
          rw [hrefs, List.map_map]
          rfl

/-! ## Until it is given back -/

/-- A move on a sandbox that holds something leaves it so, or gives it all back. -/
theorem Move.held (h : Move e u sb c u' sb' c') (hs : SandboxInv sb)
    (hc : ∀ d, c = some d → CallInv sb d) (hne : sb.held ≠ []) :
    sb'.held = sb.held ∨ GivenBack sb.held u sb u' sb' := by
  cases h with
  | finish =>
    -- a start under way has nothing in hand yet
    obtain ⟨-, hst, -⟩ := hc _ rfl
    exact absurd (hs.starting hst).2.2 hne
  | @deleteGive _ _ d =>
    have hd := CallInv.gives hs (Or.inl (hc _ rfl))
    rw [hd]
    exact Or.inr ⟨rfl, diff_self _, rfl⟩
  | @destroyGive _ _ d =>
    have hd := CallInv.gives hs (Or.inr (hc _ rfl))
    rw [hd]
    exact Or.inr ⟨rfl, diff_self _, rfl⟩
  | dump =>
    rcases dump_eq sb with h | ⟨-, h⟩ <;> rw [h] <;> exact Or.inl rfl
  | postFail lost | dumpFail _ lost | deleteFail lost | cleanupFail lost =>
    rcases maybeLost_eq sb lost with h | h <;> rw [h] <;> exact Or.inl rfl
  | _ => exact Or.inl rfl

theorem task_held {k i : ℕ} {s s' : St} (hs : Inv s) (h : ObjectStep Move k i e s s') :
    HeldUntilGiven s s' := by
  intro j sb sb' hj hj' hne
  obtain ⟨o, o', c, c', hk, hi, hmove, hobjs, -⟩ := h
  rw [hobjs] at hj'
  rcases getElem?_set_cases hj' with ⟨rfl, rfl⟩ | ⟨-, hsame⟩
  · rw [hi] at hj
    cases hj
    exact hmove.held (hs.coherent.object j sb hi) (hs.coherent.callOf hk hi) hne
  · rw [hj] at hsame
    cases hsame
    exact Or.inl rfl

theorem Inv.givesHeld {s : St} (hs : Inv s) : GivesHeld s := by
  intro k i d hd
  rcases hd with hk | hk
  · obtain ⟨sb, hi, hcall⟩ := hs.coherent.call k i _ hk
    exact ⟨sb, hi, CallInv.gives (hs.coherent.object i sb hi) (Or.inl hcall)⟩
  · obtain ⟨sb, hi, hcall⟩ := hs.coherent.call k i _ hk
    exact ⟨sb, hi, CallInv.gives (hs.coherent.object i sb hi) (Or.inr hcall)⟩

/-- In every calm run, whichever sandboxes survive a restart, recovery rebuilds what they
held; deletes and destroys give back what is held, and nothing else changes it. -/
theorem recovery_exact (s : St) (h : Reachable Init (Guarded Calm next) s) :
    (∀ survivors n s', Restart survivors n s s' → Rebuilt survivors s') ∧ GivesHeld s ∧
      ∀ k i e s', next (.task k i e) s s' → HeldUntilGiven s s' := by
  have hs := reachable_inv h
  refine ⟨?_, hs.givesHeld, ?_⟩
  · intro survivors n s' hrestart
    exact restart_rebuilt hs hrestart
  · intro k i e s' hstep
    exact task_held hs hstep

/-- A restart after a start and a delete: the sandbox that was started survives. -/
theorem recovery_exact_started :
    ∃ (s s' : St) (sb : Sandbox), GivesHeld s ∧ sb.held = ["t1"] ∧ Restart [sb] 2 s s' ∧
      Rebuilt [sb] s' := by
  obtain ⟨s, hs, -, sb, gone, hobjects, hheld, hdumped, -⟩ := started_and_deleted
  obtain ⟨hrebuilt, hgives, -⟩ := recovery_exact s hs
  have hrestart : Restart [sb] 2 s
      ⟨rebuildActiveRefs (dumps [sb]), (dumps [sb]).map recover, List.replicate 2 none⟩ := by
    refine ⟨?_, ?_, rfl⟩
    · rw [hobjects]
      exact List.sublist_append_left [sb] [gone]
    · simp [hdumped]
  exact ⟨s, _, sb, hgives, hheld, hrestart, hrebuilt _ _ _ hrestart⟩

/-! ## A record that is overwritten -/

/-- A record of a sandbox forked from the shared template `t2`. -/
def laterRecord : RestoreMetadata := { forkedRecord with templateId := some "t2" }

/-- A sandbox forked from `t1` and one idle task. -/
def oneFork : St := ⟨rebuildActiveRefs [forkedRecord], [recover forkedRecord], [none]⟩

theorem oneFork_init : Init oneFork := init_recovered [forkedRecord] 1

/-- A sandbox forked from `t1` is started again from `t2`. Its record now names `t2`, and
a restart forgets the reference on `t1`. -/
theorem restart_after_second_start :
    ∃ s s' : St, Reachable Init (AnyStep next) s ∧ Restart s.objects 1 s s' ∧
      s.shared.count "t1" = 1 ∧ (s.objects.map fun sb => sb.held.count "t1").sum = 1 ∧
      s'.shared.count "t1" = 0 ∧ ¬ Rebuilt s.objects s' := by
  have h₀ : Reachable Init (AnyStep next) oneFork := .init oneFork_init
  have h₁ := h₀.anyStep (.task 0 0 .quiet) (.idle rfl rfl (.lease laterRecord))
  have h₂ := h₁.anyStep (.task 0 0 .quiet) (.call rfl rfl (.lockStart rfl))
  have h₃ := h₂.anyStep (.task 0 0 .starts) (.call rfl rfl .record)
  have h₄ := h₃.anyStep (.task 0 0 .quiet) (.call rfl rfl .restored)
  have h₅ := h₄.anyStep (.task 0 0 .quiet) (.call rfl rfl .finish)
  refine ⟨_, _, h₅, ⟨.refl _, ?_, rfl⟩, rfl, rfl, rfl, ?_⟩
  · intro sb hsb
    rw [List.mem_singleton.mp hsb]
    simp [Sandbox.dump, recover]
  · intro hrebuilt
    exact absurd (hrebuilt.2 "t1") (by decide)

end Kuasar.References

import Kuasar.Sandbox.StorageOwners

/-!
# Sandbox.Adoption — orphans are taken over one by one

Taking over an orphan goes through four places: a mount of the new container finds a storage of the
orphan; the guest is told and registers the orphan under the name of the container; the orphan
leaves the list of the sandbox; and the guest consumes the registration when it creates the
container. The registrations are kept by the name of the container, so one container can have one.

The search goes mount by mount. A container whose mounts mean storages of two orphans takes over
both, and the second registration replaces the first (`AdoptSafe` rules this out). So does a second
attempt under the name of a container that took over an orphan before.
-/

namespace Kuasar.Storages

open FirstMatch

/-- The guest keeps the orphan for the container, or has handed it over. -/
def Registered (s : Sandbox) (orphan c : String) : Prop :=
  (s.guest.pendingAdoptions.lookup c).map AdoptionInfo.orphanContainerId = some orphan ∨
    (orphan, c) ∈ s.guest.consumed

/-- Taking over is a partial injection: no container took over two orphans, no orphan was taken over
twice, and each orphan that left the list is registered for the container that took it over. -/
def AdoptionInjective (orphans : List String) (s : Sandbox) : Prop :=
  (s.adoptions.map Prod.snd).Nodup ∧ (s.adoptions.map Prod.fst).Nodup ∧
    ∀ orphan ∈ orphans, orphan ∉ s.orphanContainerIds →
      ∃ c, (orphan, c) ∈ s.adoptions ∧ Registered s orphan c

def Restored (orphans : List String) (s : Sandbox) : Prop :=
  Started s ∧ s.orphanContainerIds = orphans ∧ s.adoptions = []

/-- The mounts of the container mean storages of one orphan at most. -/
def OneOrphan (option : ContainerOption) (s : Sandbox) : Prop :=
  ∀ p ∈ option.mounts, ∀ q ∈ option.mounts, ∀ j k,
    Candidate p.1 p.2 s j → Candidate q.1 q.2 s k → j = k

/-- A new container means one orphan at most, has not the name of an orphan, and its name is not
that of a container that took over an orphan before. -/
def AdoptSafe (l : Label) (s : Sandbox) : Prop :=
  match l with
  | .append c option _ => c ∉ s.orphanContainerIds ∧ (∀ p ∈ s.adoptions, p.2 ≠ c) ∧
      OneOrphan option s
  | _ => True

/-- The invariant: besides, an orphan that was taken over is off the list. -/
structure AdoptInv (orphans : List String) (s : Sandbox) : Prop where
  containersOnce : (s.adoptions.map Prod.snd).Nodup
  orphansOnce : (s.adoptions.map Prod.fst).Nodup
  offList : ∀ p ∈ s.adoptions, p.1 ∉ s.orphanContainerIds
  registered : ∀ p ∈ s.adoptions, Registered s p.1 p.2
  taken : ∀ orphan ∈ orphans, orphan ∉ s.orphanContainerIds → ∃ c, (orphan, c) ∈ s.adoptions

variable {c : String} {option : ContainerOption} {orphans : List String} {s s' : Sandbox}
  {orphan : String} {g g' : Guest} {m : Mount} {r : Bool} {ae : Option AttachError}

namespace AdoptInv

/-- Only what the invariant looks at. -/
theorem congr (hinv : AdoptInv orphans s) (horphans : s'.orphanContainerIds = s.orphanContainerIds)
    (hadoptions : s'.adoptions = s.adoptions) (hguest : s'.guest = s.guest) :
    AdoptInv orphans s' := by
  obtain ⟨h₁, h₂, h₃, h₄, h₅⟩ := hinv
  refine ⟨?_, ?_, ?_, ?_, ?_⟩
  · rwa [hadoptions]
  · rwa [hadoptions]
  · rwa [hadoptions, horphans]
  · unfold Registered
    rwa [hadoptions, hguest]
  · rwa [hadoptions, horphans]

theorem adoptContainer_cases (h : g.adoptContainer orphan c = some g') :
    ∃ pid, g'.pendingAdoptions = g.pendingAdoptions.insert c ⟨pid, orphan⟩ ∧
      g'.consumed = g.consumed := by
  obtain ⟨pid, -, rfl⟩ := Option.map_eq_some_iff.mp h
  exact ⟨pid, rfl, rfl⟩

/-- A registration under another name stays. -/
theorem registered_of_ne (hguest : s.guest.adoptContainer orphan c = some g) {p : String × String}
    (hne : p.2 ≠ c) (h : Registered s p.1 p.2) : Registered { s with guest := g } p.1 p.2 := by
  obtain ⟨pid, hpending, hconsumed⟩ := adoptContainer_cases hguest
  rcases h with h | h
  · refine .inl ?_
    show (g.pendingAdoptions.lookup p.2).map AdoptionInfo.orphanContainerId = some p.1
    rw [hpending, Finmap.lookup_insert_of_ne _ hne]
    exact h
  · refine .inr ?_
    show p ∈ g.consumed
    rw [hconsumed]
    exact h

/-- The adoption itself. -/
theorem registered_self (hguest : s.guest.adoptContainer orphan c = some g) :
    Registered { s with guest := g } orphan c := by
  obtain ⟨pid, hpending, -⟩ := adoptContainer_cases hguest
  refine .inl ?_
  show (g.pendingAdoptions.lookup c).map AdoptionInfo.orphanContainerId = some orphan
  rw [hpending, Finmap.lookup_insert]
  rfl

/-- A container that took over none can take over one. -/
theorem attach (h : Attach c m r s s' ae)
    (hfresh : (∀ p ∈ s.adoptions, p.2 ≠ c) ∨ ∀ orphan, ¬ Candidate m r s orphan)
    (hinv : AdoptInv orphans s) : AdoptInv orphans s' := by
  cases h with
  | adopted orphan g hcand hguest h =>
    have hfresh := hfresh.resolve_right fun hnone => hnone orphan hcand
    have hlisted := hcand.1
    rw [h]
    refine ⟨?_, ?_, ?_, ?_, ?_⟩
    · exact nodup_map_concat hinv.containersOnce hfresh
    · apply nodup_map_concat hinv.orphansOnce
      rintro p hp rfl
      exact hinv.offList p hp hlisted
    · intro p hp hmem
      obtain ⟨hmem, hne⟩ := List.mem_filter.mp hmem
      rcases mem_concat.mp hp with hp | rfl
      · exact hinv.offList p hp hmem
      · simp at hne
    · intro p hp
      rcases mem_concat.mp hp with hp | rfl
      · exact registered_of_ne hguest (hfresh p hp) (hinv.registered p hp)
      · exact registered_self hguest
    · intro k hk hoff
      by_cases hko : k = orphan
      · rw [hko]
        exact ⟨c, List.mem_append_right _ (List.mem_singleton_self _)⟩
      · have hoff' : k ∉ s.orphanContainerIds := by
          intro hmem
          exact hoff (List.mem_filter.mpr ⟨hmem, by simpa using hko⟩)
        obtain ⟨c', hc'⟩ := hinv.taken k hk hoff'
        exact ⟨c', List.mem_append_left _ hc'⟩
  | refused orphan g hcand hguest h =>
    rcases hguest with rfl | hguest
    · rw [h]
      exact hinv.congr rfl rfl rfl
    · -- the guest registered the orphan, but the answer was lost
      have hfresh := hfresh.resolve_right fun hnone => hnone orphan hcand
      rw [h]
      refine ⟨hinv.containersOnce, hinv.orphansOnce, hinv.offList, ?_, hinv.taken⟩
      exact fun p hp => registered_of_ne hguest (hfresh p hp) (hinv.registered p hp)
  | reused x hx hfree h =>
    rw [h]
    exact hinv.congr rfl rfl rfl
  | made e hnone h =>
    obtain ⟨-, horphans, hadoptions, hguest⟩ := h.frame
    exact hinv.congr horphans hadoptions hguest

/-- The guest creates a container: what was registered under its name is consumed. -/
theorem create {alive : Bool} {pid : ℕ} (hinv : AdoptInv orphans s) :
    AdoptInv orphans { s with guest := s.guest.create c alive pid } := by
  refine ⟨hinv.containersOnce, hinv.orphansOnce, hinv.offList, ?_, hinv.taken⟩
  intro p hp
  have hreg := hinv.registered p hp
  unfold Guest.create
  rcases hlookup : s.guest.pendingAdoptions.lookup c with _ | info
  · exact hreg
  · rcases hreg with hreg | hreg
    · by_cases hpc : p.2 = c
      · rw [hpc, hlookup] at hreg
        have hinfo : info.orphanContainerId = p.1 := Option.some.inj hreg
        exact .inr (List.mem_append_right _ (by simp [hinfo, ← hpc]))
      · refine .inl ?_
        show ((s.guest.pendingAdoptions.erase c).lookup p.2).map _ = some p.1
        rw [Finmap.lookup_erase_ne hpc]
        exact hreg
    · exact .inr (List.mem_append_left _ hreg)

end AdoptInv

/-- While a container is appended: it has taken over no orphan yet, or none is left that its mounts
mean. -/
structure AdoptRun (c : String) (option : ContainerOption) (orphans : List String) (s : Sandbox) :
    Prop where
  inv : AdoptInv orphans s
  name : c ∉ s.orphanContainerIds
  one : OneOrphan option s
  fresh : (∀ p ∈ s.adoptions, p.2 ≠ c) ∨ ∀ p ∈ option.mounts, ∀ k, ¬ Candidate p.1 p.2 s k

namespace AdoptRun

/-- The orphans, and what is registered, are as before, and no orphan is a candidate anew. -/
theorem congr (h : AdoptRun c option orphans s)
    (horphans : s'.orphanContainerIds = s.orphanContainerIds)
    (hadoptions : s'.adoptions = s.adoptions) (hguest : s'.guest = s.guest)
    (hcand : ∀ m r k, Candidate m r s' k → Candidate m r s k) : AdoptRun c option orphans s' where
  inv := h.inv.congr horphans hadoptions hguest
  name := by rw [horphans]; exact h.name
  one := fun p hp q hq j k hj hk => h.one p hp q hq j k (hcand _ _ _ hj) (hcand _ _ _ hk)
  fresh := by
    rw [hadoptions]
    rcases h.fresh with hfresh | hnone
    · exact .inl hfresh
    · exact .inr fun p hp k hk => hnone p hp k (hcand _ _ _ hk)

theorem attach (hm : (m, r) ∈ option.mounts) (hattach : Attach c m r s s' ae)
    (h : AdoptRun c option orphans s) : AdoptRun c option orphans s' := by
  have hcand : ∀ m r k, Candidate m r s' k → Candidate m r s k :=
    fun _ _ _ hk => attach_candidate h.name hattach hk
  have hinv : AdoptInv orphans s' := by
    refine h.inv.attach hattach ?_
    rcases h.fresh with hfresh | hnone
    · exact .inl hfresh
    · exact .inr (hnone (m, r) hm)
  refine ⟨hinv, fun hmem => h.name (attach_orphans hattach c hmem), ?_, ?_⟩
  · exact fun p hp q hq j k hj hk => h.one p hp q hq j k (hcand _ _ _ hj) (hcand _ _ _ hk)
  · cases hattach with
    | adopted orphan g hthis hguest heq =>
      -- every other candidate would be this orphan, which is off the list
      refine .inr ?_
      intro p hp k hk
      have hko := h.one p hp (m, r) hm k orphan (hcand _ _ _ hk) hthis
      rw [heq, hko] at hk
      have hne := (List.mem_filter.mp hk.1).2
      simp at hne
    | refused orphan g hthis hguest heq =>
      rw [heq]
      exact h.fresh
    | reused x hx hfree heq =>
      rcases h.fresh with hfresh | hnone
      · rw [heq]
        exact .inl hfresh
      · exact .inr fun p hp k hk => hnone p hp k (hcand _ _ _ hk)
    | made e hnone' heq =>
      rcases h.fresh with hfresh | hnone
      · rw [heq.frame.2.2.1]
        exact .inl hfresh
      · exact .inr fun p hp k hk => hnone p hp k (hcand _ _ _ hk)

theorem quiet {n : ℕ} (hq : Quiet n c s s') (h : AdoptRun c option orphans s) :
    AdoptRun c option orphans s' := by
  refine h.congr hq.orphans hq.adoptions hq.guest ?_
  intro m r k hk
  unfold Candidate at hk ⊢
  rwa [hq.storages, hq.orphans] at hk

theorem release {d : DetachOutcomes} (h : AdoptRun c option orphans s) :
    AdoptRun c option orphans (deferenceStorage d c m s).1 := by
  have hfst : (deferenceStorage d c m s).1.orphanContainerIds = s.orphanContainerIds ∧
      (deferenceStorage d c m s).1.adoptions = s.adoptions ∧
      (deferenceStorage d c m s).1.guest = s.guest := by
    rw [deferenceStorage, gcStorages_fst]
    exact ⟨rfl, rfl, rfl⟩
  refine h.congr hfst.1 hfst.2.1 hfst.2.2 ?_
  rintro m' r k ⟨hlisted, y, hy, hreuse, hk⟩
  obtain ⟨x, hx, hxy, hrefs⟩ := deferenceStorage_refs hy
  rw [hfst.1] at hlisted
  rw [hxy.reusable] at hreuse
  exact ⟨hlisted, x, hx, hreuse, hrefs k hk⟩

end AdoptRun

theorem AdoptInv.step {l : Label} (hsafe : AdoptSafe l s) (h : next l s s')
    (hinv : AdoptInv orphans s) : AdoptInv orphans s' := by
  cases l with
  | append c option o =>
    cases h
    obtain ⟨hname, hfresh, hone⟩ := hsafe
    have hrun : AdoptRun c option orphans (appendContainer o c option s).1 := by
      refine append_steps (R := fun _ s s' => AdoptRun c option orphans s →
        AdoptRun c option orphans s') ?_ ?_ ?_ ?_ ?_ ⟨hinv, hname, hone, .inl hfresh⟩
      · intro n k s s' s'' h h' hrun
        exact h' (h hrun)
      · intro n k s s' _ h
        exact h
      · intro m r s s' ae hm h hrun
        exact hrun.attach hm h
      · intro n s s' h hrun
        exact hrun.quiet h
      · intro m s hrun
        exact hrun.release
    exact hrun.inv
  | remove c o =>
    cases h
    obtain ⟨s₁, ok, devices, -, heq⟩ := remove_cases o c s
    rw [heq]
    exact hinv.congr rfl rfl rfl
  | create c alive pid =>
    cases h
    exact hinv.create

/-- Where each new container means one orphan at most: in every state that is reached taking over is
a partial injection. -/
theorem adoption_partial_injection {orphans : List String} {s : Sandbox}
    (h : Tla.Reachable (Restored orphans) (Tla.Guarded AdoptSafe next) s) :
    AdoptionInjective orphans s := by
  have hinv : AdoptInv orphans s := by
    apply h.guarded_invariant
    · rintro s ⟨-, horphans, hadoptions⟩
      constructor <;> rw [hadoptions] <;> simp [horphans]
    · intro l s s' hsafe hstep hinv
      exact hinv.step hsafe hstep
  refine ⟨hinv.containersOnce, hinv.orphansOnce, ?_⟩
  intro orphan horphan hoff
  obtain ⟨c, hc⟩ := hinv.taken orphan horphan hoff
  exact ⟨c, hc, hinv.registered _ hc⟩

def twoOrphans : Sandbox := restoredSandbox [("/d", "o"), ("/e", "p")]

theorem restored_twoOrphans : Restored ["o", "p"] twoOrphans :=
  ⟨started_restoredSandbox _, by decide, rfl⟩

/-- A container with the directory of one of two orphans takes over this one. -/
theorem adoption_partial_injection_first :
    (appendBind "a" ["/d"] twoOrphans).adoptions = [("o", "a")] ∧
      AdoptionInjective ["o", "p"] (appendBind "a" ["/d"] twoOrphans) := by
  have hr : Tla.Reachable (Restored ["o", "p"]) (Tla.Guarded AdoptSafe next)
      (appendBind "a" ["/d"] twoOrphans) := by
    have hfirst : ∀ p ∈ (bindContainer ["/d"]).mounts, ∀ x ∈ twoOrphans.storages,
        reusable p.1 p.2 x = true → x.refContainer = {"o"} := by
      decide
    refine .step (.init restored_twoOrphans)
      ⟨.append "a" (bindContainer ["/d"]) {}, ⟨by decide, ?_, ?_⟩, rfl⟩
    · intro p hp
      cases hp
    · rintro p hp q hq j k ⟨-, x, hx, hreuse, hj⟩ ⟨-, y, hy, hreuse', hk⟩
      rw [hfirst p hp x hx hreuse] at hj
      rw [hfirst q hq y hy hreuse'] at hk
      rw [Multiset.mem_singleton.mp hj, Multiset.mem_singleton.mp hk]
  exact ⟨by decide, adoption_partial_injection hr⟩

/-- A container with the directories of both takes over both, and the guest has only the second. -/
theorem container_takes_over_two :
    ∃ s, Tla.Reachable (Restored ["o", "p"]) (Tla.AnyStep next) s ∧
      ¬ AdoptionInjective ["o", "p"] s ∧ s.adoptions = [("o", "a"), ("p", "a")] ∧
      s.orphanContainerIds = [] ∧ ¬ Registered s "o" "a" := by
  have hr : Tla.Reachable (Restored ["o", "p"]) (Tla.AnyStep next)
      (appendBind "a" ["/d", "/e"] twoOrphans) :=
    (Tla.Reachable.init restored_twoOrphans).anyStep
      (.append "a" (bindContainer ["/d", "/e"]) {}) rfl
  refine ⟨_, hr, ?_, by decide, by decide, ?_⟩
  · intro h
    exact absurd h.1 (by decide)
  · unfold Registered
    decide

end Kuasar.Storages

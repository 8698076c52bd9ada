import Kuasar.Sandbox.StorageReferences

/-!
# Sandbox.StorageOwners — every reference on a storage has an owner

A reference on a storage is one of a live container, or one of an orphan that no container took
over yet. Two things can leave a reference without an owner.

* An orphan is taken off the list when the first of its storages is taken over. Its references on
  others stay (`Whole` rules this out: the orphan has none).
* A mount is released by source and type, but attached by source identity. A storage that was
  reused for its identity alone is not found again (`Fits` and `MountsApart` rule this out).

For the failed creations the argument counts: the storages of one source and type that the new
container refers to are at most as many as its mounts of that source and type, and each release of
such a mount drops one of them.
-/

namespace Kuasar.Storages

open Sandbox FirstMatch

/-! ## The storage that a mount is given -/

/-- A storage made for `m` is reused for `m'` only if it has its source. -/
def Mount.Apart (m m' : Mount) : Prop :=
  ∀ i ∈ m.madeIdentities, m'.sourceIdentity = some i → m'.type = m.type → m'.source = m.source

/-- No mount of the container reuses a storage of another source made for another of its mounts. -/
def ContainerOption.MountsApart (option : ContainerOption) : Prop :=
  ∀ p ∈ option.mounts, ∀ q ∈ option.mounts, p.1.Apart q.1

/-- The storages that the mounts of the container can reuse have their source and type. -/
def Fits (option : ContainerOption) (s : Sandbox) : Prop :=
  ∀ p ∈ option.mounts, ∀ x ∈ s.storages, reusable p.1 p.2 x = true → x.isForMount p.1 = true

variable {c k : String} {option : ContainerOption} {s s' : Sandbox} {m m' : Mount} {r : Bool}
  {x : Storage} {ae : Option AttachError} {d : DetachOutcomes}

theorem newFor_fits {id : String} (hx : NewFor id c m x) (hapart : m.Apart m')
    (hreuse : reusable m' r x = true) : x.isForMount m' = true := by
  have hfor := isForMount_iff.mp hx.isForMount
  obtain ⟨htype, hsource | ⟨i, hi, hm⟩⟩ := reusable_cases hx.identity hreuse
  · exact isForMount_iff.mpr ⟨hsource, htype⟩
  · -- by identity: the mounts are apart
    have hsame := hapart i hi hm (htype.symm.trans hfor.2)
    exact isForMount_iff.mpr ⟨hfor.1.trans hsame.symm, htype⟩

theorem attach_fits (hapart : option.MountsApart) (hm : (m, r) ∈ option.mounts)
    (h : Attach c m r s s' ae) (hfits : Fits option s) : Fits option s' := by
  intro p hp y hy hreuse
  rcases attach_mem h hy with hy | ⟨x, hx, hsame, -⟩ | hnew
  · exact hfits p hp y hy hreuse
  · rw [hsame.reusable] at hreuse
    rw [hsame.isForMount]
    exact hfits p hp x hx hreuse
  · exact newFor_fits hnew (hapart (m, r) hm p hp) hreuse

/-! ## Failed creations drop their references -/

/-- The container refers to a storage with the source and the type of the mount. -/
def heldFor (c : String) (m : Mount) (x : Storage) : Bool := x.isForMount m && c ∈ x.refContainer

/-- The number of these storages. -/
def holders (c : String) (m : Mount) (s : Sandbox) : ℕ := s.storages.countP (heldFor c m)

/-- The number of mounts with the source and the type of a mount. -/
def uses (m : Mount) (calls : List MountCall) : ℕ :=
  calls.countP fun call => call.mount.source = m.source && call.mount.type = m.type

theorem heldFor_iff : heldFor c m x = true ↔ x.isForMount m = true ∧ c ∈ x.refContainer := by
  simp [heldFor]

theorem uses_cons (m : Mount) (call : MountCall) (calls : List MountCall) :
    uses m (call :: calls) = uses m [call] + uses m calls := by
  unfold uses
  rw [← List.countP_append]
  rfl

/-- A storage for both mounts. -/
theorem uses_singleton {call : MountCall} (hx : x.isForMount m = true)
    (hx' : x.isForMount call.mount = true) : uses m [call] = 1 := by
  rw [isForMount_iff] at hx hx'
  simp [uses, ← hx.1, ← hx.2, ← hx'.1, ← hx'.2]

theorem of_uses_ne_zero {call : MountCall} (h : uses m [call] ≠ 0) :
    call.mount.source = m.source ∧ call.mount.type = m.type := by
  by_contra hne
  exact h (by simpa [uses] using hne)

/-- Attaching a mount adds at most one storage of its source and type. -/
theorem attach_holders {call : MountCall} (h : Attach c call.mount call.isRootfsMount s s' ae)
    (hfits : ∀ x ∈ s.storages, reusable call.mount call.isRootfsMount x = true →
      x.isForMount call.mount = true) :
    holders c m s' ≤ holders c m s + uses m [call] := by
  have hone : ∀ x : Storage, x.isForMount call.mount = true →
      [x].countP (heldFor c m) ≤ uses m [call] := by
    intro x hx
    rcases hm : heldFor c m x with _ | _
    · simp [hm]
    · rw [uses_singleton (heldFor_iff.mp hm).1 hx]
      simp [hm]
  unfold holders
  rcases attach_storages h with ⟨heq, -⟩ | ⟨f, hf, heq⟩ | ⟨x, hx, heq, -⟩
  · rw [heq]
    omega
  · rcases hfind : s.storages.find? (reusable call.mount call.isRootfsMount) with _ | x
    · rw [heq, updateFirst_of_find?_eq_none hfind]
      omega
    · have hcount := countP_updateFirst (f := f) (q := heldFor c m) hfind
      have hx := hfits x (List.mem_of_find?_eq_some hfind) (List.find?_some hfind)
      rw [← (hf.same x).isForMount] at hx
      have := hone (f x) hx
      rw [heq]
      omega
  · rw [heq, List.countP_append]
    have := hone x hx.isForMount
    omega

theorem attachRun_holders {calls : List MountCall} (hapart : option.MountsApart)
    (h : AttachRun c calls s s')
    (hcalls : ∀ call ∈ calls, (call.mount, call.isRootfsMount) ∈ option.mounts)
    (hfits : Fits option s) (m : Mount) : holders c m s' ≤ holders c m s + uses m calls := by
  induction h with
  | nil => omega
  | @cons call calls s s₁ s₂ h _ ih =>
    have hm := hcalls call List.mem_cons_self
    have hstep := attach_holders (m := m) h (hfits _ hm)
    have hrest := ih (fun call' hcall' => hcalls call' (List.mem_cons_of_mem _ hcall'))
      (attach_fits hapart hm h hfits)
    rw [uses_cons]
    omega

/-- Releasing a mount drops one of them. -/
theorem deferenceStorage_holders {call : MountCall} :
    holders c m (deferenceStorage d c call.mount s).1 ≤ holders c m s - uses m [call] := by
  have hgc : holders c m (deferenceStorage d c call.mount s).1 ≤
      (updateFirst (heldFor c call.mount) (Storage.defer c) s.storages).countP (heldFor c m) :=
    gcStorages_sublist.countP_le
  refine hgc.trans ?_
  unfold holders
  rcases hfind : s.storages.find? (heldFor c call.mount) with _ | x
  · -- there is none
    rw [updateFirst_of_find?_eq_none hfind]
    by_cases hsame : uses m [call] = 0
    · omega
    · have hzero : s.storages.countP (heldFor c m) = 0 := by
        rw [List.countP_eq_zero]
        intro y hy hheld
        refine List.find?_eq_none.mp hfind y hy ?_
        rw [heldFor_iff, isForMount_iff] at hheld ⊢
        rw [(of_uses_ne_zero hsame).1, (of_uses_ne_zero hsame).2]
        exact hheld
      omega
  · have hcount := countP_updateFirst (f := Storage.defer c) (q := heldFor c m) hfind
    have hheld := heldFor_iff.mp (List.find?_some hfind)
    have hdrop : [x.defer c].countP (heldFor c m) = 0 := by
      simp [heldFor, Storage.defer]
    rcases hm : x.isForMount m with _ | _
    · -- a storage of another source or type
      have hother : uses m [call] = 0 := by
        by_contra hne
        have hfor := isForMount_iff.mp hheld.1
        rw [(of_uses_ne_zero hne).1, (of_uses_ne_zero hne).2, ← isForMount_iff, hm] at hfor
        cases hfor
      omega
    · have hself : [x].countP (heldFor c m) = 1 := by
        simp [heldFor_iff.mpr ⟨hm, hheld.2⟩]
      rw [uses_singleton hm hheld.1]
      omega

theorem releaseAll_holders (m : Mount) {calls : List MountCall} :
    holders c m (releaseAll d c calls s) ≤ holders c m s - uses m calls := by
  induction calls generalizing s with
  | nil =>
    show holders c m s ≤ holders c m s - 0
    omega
  | cons call calls ih =>
    have hstep := @deferenceStorage_holders c s m d call
    have hrest := @ih (deferenceStorage d c call.mount s).1
    rw [uses_cons]
    show holders c m (releaseAll d c calls (deferenceStorage d c call.mount s).1) ≤ _
    omega

theorem not_held_of_holders (h : ∀ m, holders c m s = 0) :
    ∀ x ∈ s.storages, c ∉ x.refContainer := by
  intro x hx hc
  have hzero := h ⟨"", x.type, x.hostSource, []⟩
  refine List.countP_eq_zero.mp hzero x hx (heldFor_iff.mpr ⟨?_, hc⟩)
  simp [Storage.isForMount]

/-- A container that could not be appended refers to no storage, if it did not before. -/
theorem append_error_released {o : AppendOutcomes} {e : AppendError} (hapart : option.MountsApart)
    (hfits : Fits option s) (hc : ∀ x ∈ s.storages, c ∉ x.refContainer)
    (h : Chain.run (appendHandlers o c option) s = (s', some e)) :
    ∀ x ∈ s'.storages, c ∉ x.refContainer := by
  rcases append_error h with ⟨-, rfl⟩ | ⟨done, rest, s₁, s₂, hcalls, hrun, rfl, hend⟩
  · exact hc
  · apply not_held_of_holders (s := (releaseAll o.detach c done.reverse s₂).forget c)
    intro m
    have hmem : ∀ call ∈ done, (call.mount, call.isRootfsMount) ∈ option.mounts :=
      fun call hcall => mount_mem_mounts call (hcalls ▸ List.mem_append_left rest hcall)
    have hstart : holders c m (s.withContainer c option) = 0 := by
      refine List.countP_eq_zero.mpr ?_
      intro x hx hheld
      exact hc x hx (heldFor_iff.mp hheld).2
    have hattached := attachRun_holders hapart hrun hmem hfits m
    have hsame : holders c m s₂ = holders c m s₁ := by
      unfold holders
      rcases hend with ⟨call, ae, -, -, hattach⟩ | ⟨-, -, hq, -⟩
      · rw [attach_error_storages hattach]
      · rw [hq.storages]
    have hreleased := @releaseAll_holders c s₂ o.detach m done.reverse
    have hreverse : uses m done.reverse = uses m done := List.countP_reverse
    show holders c m (releaseAll o.detach c done.reverse s₂) = 0
    omega

/-! ## Orphans that are taken over -/

/-- An orphan that the mount can take over refers to no storage but the one it is given. -/
def Whole (m : Mount) (r : Bool) (s : Sandbox) : Prop :=
  ∀ orphan, Candidate m r s orphan → ∀ i x, s.storages[i]? = some x →
    orphan ∈ x.refContainer → s.storages.findIdx? (reusable m r) = some i

/-- Every reference is one of `c`, of a live container or of an orphan. -/
def OwnedBut (c : String) (s : Sandbox) : Prop :=
  ∀ x ∈ s.storages, ∀ k ∈ x.refContainer, k = c ∨ k ∈ s.containers ∨ k ∈ s.orphanContainerIds

theorem attach_candidate {m' : Mount} {r' : Bool} {orphan : String}
    (hc : c ∉ s.orphanContainerIds) (h : Attach c m' r' s s' ae) (hcand : Candidate m r s' orphan) :
    Candidate m r s orphan := by
  obtain ⟨horphan, y, hy, hreuse, hk⟩ := hcand
  have horphan := attach_orphans h orphan horphan
  obtain ⟨i, hi⟩ := List.mem_iff_getElem?.mp hy
  obtain ⟨x, hx, hxy, hkx⟩ := attach_old h hi hk (by rintro rfl; exact hc horphan)
  rw [hxy.reusable] at hreuse
  exact ⟨horphan, x, List.mem_of_getElem? hx, hreuse, hkx⟩

theorem attach_whole {m' : Mount} {r' : Bool} (hc : c ∉ s.orphanContainerIds)
    (h : Attach c m' r' s s' ae) (hwhole : Whole m r s) : Whole m r s' := by
  intro orphan hcand i y hy hk
  have hcand := attach_candidate hc h hcand
  obtain ⟨x, hx, -, hkx⟩ := attach_old h hy hk (by rintro rfl; exact hc hcand.1)
  exact attach_findIdx? (fun x y hxy => hxy.reusable m r) h (hwhole orphan hcand i x hx hkx)

/-- The orphan that is taken over has no reference left. -/
theorem adopted_gone {orphan : String} (hattach : Attach c m r s s' ae) (hwhole : Whole m r s)
    (hcand : Candidate m r s orphan) (hc : orphan ≠ c)
    (h : s'.storages = updateFirst (reusable m r) (fun x => (x.defer orphan).refer c) s.storages) :
    ∀ y ∈ s'.storages, orphan ∉ y.refContainer := by
  intro y hy hk
  obtain ⟨i, hi⟩ := List.mem_iff_getElem?.mp hy
  obtain ⟨x, hx, -, hkx⟩ := attach_old hattach hi hk hc
  -- the storage is the one that changed
  rw [h, getElem?_updateFirst, if_pos (hwhole orphan hcand i x hx hkx), hx] at hi
  cases hi
  rcases Multiset.mem_cons.mp hk with hk | hk
  · exact hc hk
  · exact (mem_defer.mp hk).2 rfl

theorem attach_ownedBut (h : Attach c m r s s' ae) (hwhole : Whole m r s) (howned : OwnedBut c s) :
    OwnedBut c s' := by
  intro y hy k hk
  by_cases hkc : k = c
  · exact .inl hkc
  obtain ⟨i, hi⟩ := List.mem_iff_getElem?.mp hy
  obtain ⟨x, hx, -, hkx⟩ := attach_old h hi hk hkc
  rw [attach_containers h]
  rcases howned x (List.mem_of_getElem? hx) k hkx with hkc' | hlive | horphan
  · exact absurd hkc' hkc
  · exact .inr (.inl hlive)
  · refine .inr (.inr ?_)
    have hgone := @adopted_gone c s s' m r ae k h hwhole
    cases h with
    | adopted orphan g hcand hguest h =>
      have hne : k ≠ orphan := by
        rintro rfl
        exact hgone hcand hkc (by rw [h]) y hy hk
      rw [h]
      exact List.mem_filter.mpr ⟨horphan, by simpa using hne⟩
    | refused orphan g hcand hguest h | reused x hx hfree h =>
      rw [h]
      exact horphan
    | made e hnone h =>
      rw [h.frame.2.1]
      exact horphan

theorem attachRun_ownedBut {calls : List MountCall} (h : AttachRun c calls s s')
    (hcalls : ∀ call ∈ calls, (call.mount, call.isRootfsMount) ∈ option.mounts)
    (hc : c ∉ s.orphanContainerIds) (hwhole : ∀ p ∈ option.mounts, Whole p.1 p.2 s)
    (howned : OwnedBut c s) :
    c ∉ s'.orphanContainerIds ∧ (∀ p ∈ option.mounts, Whole p.1 p.2 s') ∧ OwnedBut c s' := by
  induction h with
  | nil => exact ⟨hc, hwhole, howned⟩
  | cons h _ ih =>
    apply ih (fun call hcall => hcalls call (List.mem_cons_of_mem _ hcall))
    · exact fun hmem => hc (attach_orphans h c hmem)
    · exact fun p hp => attach_whole hc h (hwhole p hp)
    · exact attach_ownedBut h (hwhole _ (hcalls _ List.mem_cons_self)) howned

theorem quiet_ownedBut {n : ℕ} (h : Quiet n c s s') (howned : OwnedBut c s) : OwnedBut c s' := by
  intro x hx k hk
  rw [h.storages] at hx
  rw [h.orphans]
  by_cases hkc : k = c
  · exact .inl hkc
  · rcases howned x hx k hk with hkc' | hlive | horphan
    · exact .inl hkc'
    · have hmem : k ∈ s'.containers.erase c := by
        rw [h.containers, Finmap.mem_erase]
        exact ⟨hkc, hlive⟩
      exact .inr (.inl (Finmap.mem_erase.mp hmem).2)
    · exact .inr (.inr horphan)

/-- Releasing a mount adds no reference. -/
theorem deferenceStorage_refs {y : Storage} (hy : y ∈ (deferenceStorage d c m s).1.storages) :
    ∃ x ∈ s.storages, x.Same y ∧ ∀ k ∈ y.refContainer, k ∈ x.refContainer := by
  rcases mem_updateFirst (gcStorages_sublist.subset hy) with hy | ⟨x, hx, rfl⟩
  · exact ⟨y, hy, .refl y, fun _ hk => hk⟩
  · exact ⟨x, List.mem_of_find?_eq_some hx, x.same_defer c, fun _ hk => (mem_defer.mp hk).1⟩

theorem deferenceStorage_ownedBut (howned : OwnedBut c s) :
    OwnedBut c (deferenceStorage d c m s).1 := by
  intro y hy k hk
  obtain ⟨x, hx, -, hrefs⟩ := deferenceStorage_refs hy
  rw [deferenceStorage, gcStorages_fst]
  exact howned x hx k (hrefs k hk)

theorem releaseAll_ownedBut {calls : List MountCall} (howned : OwnedBut c s) :
    OwnedBut c (releaseAll d c calls s) := by
  induction calls generalizing s with
  | nil => exact howned
  | cons call calls ih => exact ih (deferenceStorage_ownedBut howned)

/-! ## Storages in order -/

/-- The storages are numbered, can be collected and are in use. -/
structure Tidy (s : Sandbox) : Prop where
  numbered : s.Numbered
  releasable : ∀ x ∈ s.storages, x.Releasable
  referenced : ∀ x ∈ s.storages, x.refContainer ≠ 0

theorem attach_tidy (hroom : s.idGenerator + 2 < 2 ^ 32) (h : Attach c m r s s' ae) (ht : Tidy s) :
    Tidy s' := by
  refine ⟨attach_numbered h hroom ht.numbered,
    releasable_of_descends (attach_descends hroom h) ht.releasable, ?_⟩
  have hmem : ∀ y : Storage, c ∈ y.refContainer → y.refContainer ≠ 0 := by
    intro y hc hzero
    rw [hzero] at hc
    exact Multiset.notMem_zero c hc
  intro y hy
  rcases attach_mem h hy with hy | ⟨x, -, -, hc⟩ | hnew
  · exact ht.referenced y hy
  · exact hmem y hc
  · rw [hnew.refContainer]
    exact Multiset.singleton_ne_zero c

theorem quiet_tidy {n : ℕ} (hroom : s.idGenerator + n < 2 ^ 32) (h : Quiet n c s s')
    (ht : Tidy s) : Tidy s' := by
  refine ⟨quiet_numbered h hroom ht.numbered, ?_, ?_⟩ <;> rw [h.storages]
  · exact ht.releasable
  · exact ht.referenced

/-- References were dropped, and the collector ran. -/
theorem gcStorages_tidy (hd : d.Succeed) (hn : s.Numbered) (hrel : ∀ x ∈ s.storages, x.Releasable) :
    (gcStorages d s).2 = true ∧ Tidy (gcStorages d s).1 := by
  have hok : (gcStorages d s).2 = true := by rw [gcStorages_eq hd hrel hn.ids_nodup]
  refine ⟨hok, gcStorages_numbered hn, ?_, gcStorages_referenced hok⟩
  exact fun x hx => hrel x (gcStorages_sublist.subset hx)

/-- The sandbox after the references of a mount were dropped, before the collector runs. -/
def dropMount (c : String) (m : Mount) (s : Sandbox) : Sandbox :=
  { s with storages := updateFirst (heldFor c m) (Storage.defer c) s.storages }

theorem dropMount_numbered (ht : Tidy s) : (dropMount c m s).Numbered := by
  refine ht.numbered.congr ?_ (Nat.le_refl s.idGenerator)
  apply map_updateFirst
  intro y
  rfl

theorem dropMount_releasable (ht : Tidy s) : ∀ x ∈ (dropMount c m s).storages, x.Releasable := by
  intro y hy
  rcases mem_updateFirst hy with hy | ⟨x, hx, rfl⟩
  · exact ht.releasable y hy
  · exact ht.releasable x (List.mem_of_find?_eq_some hx)

theorem deferenceStorage_tidy (hd : d.Succeed) (ht : Tidy s) : Tidy (deferenceStorage d c m s).1 :=
  (gcStorages_tidy hd (dropMount_numbered ht) (dropMount_releasable ht)).2

theorem deferenceContainerStorages_tidy (hd : d.Succeed) (ht : Tidy s) :
    (deferenceContainerStorages d c s).2 = true ∧ Tidy (deferenceContainerStorages d c s).1 := by
  refine gcStorages_tidy hd ?_ ?_
  · refine ht.numbered.congr ?_ (Nat.le_refl s.idGenerator)
    simp [thin, Function.comp_def, Storage.defer]
  · intro y hy
    obtain ⟨x, hx, rfl⟩ := List.mem_map.mp hy
    exact ht.releasable x hx

theorem append_tidy {o : AppendOutcomes} (hroom : Room option s) (hd : o.detach.Succeed)
    (ht : Tidy s) : Tidy (appendContainer o c option s).1 := by
  refine append_rel (R := fun s s' => Tidy s → Tidy s') ?_ ?_ ?_ ?_ hroom ht
  · intro s s' s'' h h' ht
    exact h' (h ht)
  · intro m r s s' ae _ hroom h ht
    exact attach_tidy hroom h ht
  · intro n s s' hroom h ht
    exact quiet_tidy hroom h ht
  · intro m s ht
    exact deferenceStorage_tidy hd ht

theorem remove_tidy {o : RemoveOutcomes} (hd : o.detach.Succeed) (ht : Tidy s) :
    Tidy (removeContainer o c s).1 := by
  have hn := @removeContainer_numbered c s o ht.numbered
  have ht₁ := (@deferenceContainerStorages_tidy c s o.detach hd ht).2
  obtain ⟨s₁, ok, devices, h, heq⟩ := remove_cases o c s
  rw [h] at ht₁
  rw [heq] at hn ⊢
  exact ⟨hn, ht₁.releasable, ht₁.referenced⟩

/-! ## Every reference has an owner -/

/-- Every reference is one of a live container or of an orphan; without either no storage is
left. -/
def Owned (s : Sandbox) : Prop :=
  (∀ x ∈ s.storages, ∀ k ∈ x.refContainer, k ∈ s.containers ∨ k ∈ s.orphanContainerIds) ∧
    (s.containers = ∅ → s.orphanContainerIds = [] → s.storages = [])

/-- The mounts of a container are given storages of their source and type, and orphans that refer
to no other storage. -/
def MountsSafe (c : String) (option : ContainerOption) (o : AppendOutcomes) (s : Sandbox) : Prop :=
  c ∉ s.orphanContainerIds ∧ Room option s ∧ o.detach.Succeed ∧ option.MountsApart ∧
    Fits option s ∧ ∀ p ∈ option.mounts, Whole p.1 p.2 s

/-- A new container has a new name and such mounts; what is released can be detached. -/
def OwnSafe (l : Label) (s : Sandbox) : Prop :=
  match l with
  | .append c option o => c ∉ s.containers ∧ MountsSafe c option o s
  | .remove _ o => o.detach.Succeed
  | .create _ _ _ => True

/-- The invariant. -/
structure OwnInv (s : Sandbox) : Prop where
  tidy : Tidy s
  owned : ∀ x ∈ s.storages, ∀ k ∈ x.refContainer, k ∈ s.containers ∨ k ∈ s.orphanContainerIds

namespace OwnInv

theorem of_started (h : Started s) : OwnInv s where
  tidy := ⟨h.numbered, h.releasable, h.referenced⟩
  owned := fun x hx k hk => .inr (h.owned x hx k hk)

/-- A container that is not live and no orphan holds nothing. -/
theorem not_held (hinv : OwnInv s) (hlive : c ∉ s.containers) (horphan : c ∉ s.orphanContainerIds) :
    ∀ x ∈ s.storages, c ∉ x.refContainer := by
  intro x hx hc
  rcases hinv.owned x hx c hc with h | h
  · exact hlive h
  · exact horphan h

/-- Whether or not the container could be appended, only its own references can lack an owner. -/
theorem append_ownedBut {o : AppendOutcomes} {e : Option AppendError}
    (hsafe : MountsSafe c option o s) (hinv : OwnInv s)
    (h : Chain.run (appendHandlers o c option) s = (s', e)) : OwnedBut c s' := by
  obtain ⟨hc, hroom, hdetach, hapart, hfits, hwhole⟩ := hsafe
  have hstart : OwnedBut c (s.withContainer c option) := by
    refine quiet_ownedBut (quiet_insert (s := s) _) ?_
    exact fun x hx k hk => .inr (hinv.owned x hx k hk)
  rcases e with _ | e
  · obtain ⟨s₁, roots, k, hrun, -, hq, -⟩ := append_ok h
    obtain ⟨-, -, howned⟩ := attachRun_ownedBut hrun mount_mem_mounts hc hwhole hstart
    exact quiet_ownedBut hq howned
  · rcases append_error h with ⟨-, rfl⟩ | ⟨done, rest, s₁, s₂, hcalls, hrun, rfl, hend⟩
    · refine quiet_ownedBut (quiet_forget c s) ?_
      exact fun x hx k hk => .inr (hinv.owned x hx k hk)
    · obtain ⟨hc₁, hwhole₁, howned₁⟩ := attachRun_ownedBut hrun
        (fun call hcall => mount_mem_mounts call (hcalls ▸ List.mem_append_left rest hcall))
        hc hwhole hstart
      refine quiet_ownedBut (quiet_forget c _) (releaseAll_ownedBut ?_)
      rcases hend with ⟨call, ae, hhead, -, hattach⟩ | ⟨-, -, hq, -⟩
      · have hmem : call ∈ option.calls o :=
          hcalls ▸ List.mem_append_right done (List.mem_of_head? hhead)
        exact attach_ownedBut hattach (hwhole₁ _ (mount_mem_mounts call hmem)) howned₁
      · exact quiet_ownedBut hq howned₁

theorem append {o : AppendOutcomes} (hsafe : OwnSafe (.append c option o) s) (hinv : OwnInv s) :
    OwnInv (appendContainer o c option s).1 := by
  obtain ⟨hnew, hmounts⟩ := hsafe
  have htidy := @append_tidy c option s o hmounts.2.1 hmounts.2.2.1 hinv.tidy
  refine ⟨htidy, ?_⟩
  rw [appendContainer_fst]
  rcases h : Chain.run (appendHandlers o c option) s with ⟨s', _ | e⟩ <;>
    have howned := hinv.append_ownedBut hmounts h
  · -- the container is live now
    obtain ⟨-, -, k, -, -, -, hk, -⟩ := append_ok h
    intro x hx k' hk'
    rcases howned x hx k' hk' with rfl | hlive
    · exact .inl (Finmap.mem_of_lookup_eq_some hk)
    · exact hlive
  · -- it holds nothing any more
    have hreleased := append_error_released hmounts.2.2.2.1 hmounts.2.2.2.2.1
      (hinv.not_held hnew hmounts.1) h
    intro x hx k' hk'
    rcases howned x hx k' hk' with rfl | hlive
    · exact absurd hk' (hreleased x hx)
    · exact hlive

theorem remove {o : RemoveOutcomes} (hsafe : OwnSafe (.remove c o) s) (hinv : OwnInv s) :
    OwnInv (removeContainer o c s).1 := by
  refine ⟨remove_tidy hsafe hinv.tidy, ?_⟩
  obtain ⟨s₁, ok, devices, h, heq⟩ := remove_cases o c s
  rw [heq]
  intro y hy k hk
  have hy : y ∈ (deferenceContainerStorages o.detach c s).1.storages := by rwa [h]
  obtain ⟨x, hx, rfl⟩ := List.mem_map.mp (gcStorages_sublist.subset hy)
  obtain ⟨hk, hkc⟩ := mem_defer.mp hk
  rcases hinv.owned x hx k hk with hlive | horphan
  · refine .inl ?_
    split
    · exact Finmap.mem_erase.mpr ⟨hkc, hlive⟩
    · exact hlive
  · exact .inr horphan

theorem step {l : Label} (hsafe : OwnSafe l s) (h : next l s s') (hinv : OwnInv s) : OwnInv s' := by
  cases l with
  | append c option o =>
    cases h
    exact append hsafe hinv
  | remove c o =>
    cases h
    exact remove hsafe hinv
  | create c alive pid =>
    cases h
    exact ⟨⟨hinv.tidy.numbered, hinv.tidy.releasable, hinv.tidy.referenced⟩, hinv.owned⟩

theorem of_reachable (h : Tla.Reachable Started (Tla.Guarded OwnSafe next) s) : OwnInv s := by
  apply h.guarded_invariant
  · intro s hs
    exact of_started hs
  · intro l s s' hsafe hstep hinv
    exact hinv.step hsafe hstep

end OwnInv

/-- Where mounts are given storages of their own source and type, and orphans with no other
storage: in every state that is reached each reference is one of a live container or of an orphan,
and without either no storage is left. -/
theorem references_owned {s : Sandbox} (h : Tla.Reachable Started (Tla.Guarded OwnSafe next) s) :
    Owned s := by
  have hinv := OwnInv.of_reachable h
  refine ⟨hinv.owned, ?_⟩
  intro hcontainers horphans
  rw [List.eq_nil_iff_forall_not_mem]
  intro x hx
  obtain ⟨k, hk⟩ := Multiset.exists_mem_of_ne_zero (hinv.tidy.referenced x hx)
  rcases hinv.owned x hx k hk with hlive | horphan
  · rw [hcontainers] at hlive
    exact absurd hlive Finmap.notMem_empty
  · rw [horphans] at horphan
    cases horphan

/-- A directory of the host at a path of the container. -/
def bindMount (source : String) : Mount := ⟨"/mnt", "bind", source, []⟩

/-- A restored sandbox with storages of directories of the host, each with the orphan that refers
to it. -/
def restoredSandbox (dirs : List (String × String)) : Sandbox where
  idGenerator := dirs.length
  storages := dirs.mapIdx fun i p =>
    hostStorage (storageId (i + 1)) p.2 (bindMount p.1) none (some ("bind:" ++ p.1))
  containers := ∅
  orphanContainerIds := (dirs.map Prod.snd).dedup
  guest := ⟨dirs.foldl (fun g p => g.insert p.2 7) ∅, ∅, []⟩

def bindContainer (sources : List String) : ContainerOption where
  rootfs := []
  spec := some { mounts := sources.map bindMount, root := none }

theorem mem_restoredSandbox {dirs : List (String × String)}
    (hx : x ∈ (restoredSandbox dirs).storages) :
    ∃ i < dirs.length, ∃ p ∈ dirs, x =
      hostStorage (storageId (i + 1)) p.2 (bindMount p.1) none (some ("bind:" ++ p.1)) := by
  obtain ⟨i, hi, rfl⟩ := List.mem_mapIdx.mp hx
  exact ⟨i, hi, dirs[i], List.getElem_mem hi, rfl⟩

theorem started_restoredSandbox (dirs : List (String × String)) :
    Started (restoredSandbox dirs) where
  containers := rfl
  numbered := by
    constructor
    · have hids : (restoredSandbox dirs).thin.map (fun x => x.id) =
          (List.range dirs.length).map fun i => storageId (i + 1) := by
        apply List.ext_getElem
        · simp [thin, restoredSandbox]
        · intro i _ _
          simp [thin, restoredSandbox, hostStorage]
      rw [hids]
      refine List.Nodup.map ?_ List.nodup_range
      intro i j hij
      simpa [storageId_inj] using hij
    · have hnone : (restoredSandbox dirs).thin.filterMap (fun x => x.deviceId) = [] := by
        rw [List.filterMap_eq_nil_iff]
        intro y hy
        obtain ⟨x, hx, rfl⟩ := List.mem_map.mp hy
        obtain ⟨i, -, p, -, rfl⟩ := mem_restoredSandbox hx
        rfl
      rw [hnone]
      exact List.nodup_nil
    · intro y hy
      obtain ⟨x, hx, rfl⟩ := List.mem_map.mp hy
      obtain ⟨i, hi, p, -, rfl⟩ := mem_restoredSandbox hx
      exact ⟨i + 1, hi, rfl⟩
    · intro y hy d hd
      obtain ⟨x, hx, rfl⟩ := List.mem_map.mp hy
      obtain ⟨i, hi, p, -, rfl⟩ := mem_restoredSandbox hx
      cases hd
  releasable := by
    intro x hx
    obtain ⟨i, -, p, -, rfl⟩ := mem_restoredSandbox hx
    intro howned
    cases howned
  referenced := by
    intro x hx
    obtain ⟨i, -, p, -, rfl⟩ := mem_restoredSandbox hx
    exact Multiset.singleton_ne_zero p.2
  owned := by
    intro x hx k hk
    obtain ⟨i, -, p, hp, rfl⟩ := mem_restoredSandbox hx
    rw [Multiset.mem_singleton.mp hk]
    exact List.mem_dedup.mpr (List.mem_map.mpr ⟨p, hp, rfl⟩)

/-- The sandbox with a container of directories. -/
def appendBind (c : String) (sources : List String) (s : Sandbox) : Sandbox :=
  (appendContainer {} c (bindContainer sources) s).1

/-- An orphan with one storage is taken over, and the storage has one owner. -/
theorem references_owned_takeOver :
    (appendBind "a" ["/d"] (restoredSandbox [("/d", "o")])).orphanContainerIds = [] ∧
      Owned (appendBind "a" ["/d"] (restoredSandbox [("/d", "o")])) := by
  have hr : Tla.Reachable Started (Tla.Guarded OwnSafe next)
      (appendBind "a" ["/d"] (restoredSandbox [("/d", "o")])) := by
    have hfirst : ∀ p ∈ (bindContainer ["/d"]).mounts,
        (restoredSandbox [("/d", "o")]).storages.findIdx? (reusable p.1 p.2) = some 0 := by
      decide
    refine .step (.init (started_restoredSandbox [("/d", "o")]))
      ⟨.append "a" (bindContainer ["/d"]) {},
        ⟨Finmap.notMem_empty, by decide, ?_, ⟨fun _ => rfl, fun _ => rfl⟩, ?_, ?_, ?_⟩, rfl⟩
    · show (1 : ℕ) + 2 * 1 + 3 < 2 ^ 32
      decide
    · show ∀ p ∈ _, ∀ q ∈ _, ∀ i ∈ _, _
      decide
    · show ∀ p ∈ _, ∀ x ∈ _, _
      decide
    · intro p hp orphan _ i x hx hk
      rcases i with _ | i
      · exact hfirst p hp
      · cases hx
  exact ⟨by decide, references_owned hr⟩

/-- An orphan with two storages is taken over by a container with the same two mounts. It is off
the list after the first, and its reference on the second stays when all containers are gone. -/
theorem orphan_reference_left :
    ∃ s, Tla.Reachable Started (Tla.AnyStep next) s ∧ ¬ Owned s ∧ s.containers = ∅ ∧
      s.orphanContainerIds = [] ∧
      (s.storages.map fun x => (x.id, x.refContainer)) = [("storage2", {"o"})] := by
  have hr : Tla.Reachable Started (Tla.AnyStep next) (removeContainer {} "a"
      (appendBind "a" ["/d", "/e"] (restoredSandbox [("/d", "o"), ("/e", "o")]))).1 :=
    ((Tla.Reachable.init (started_restoredSandbox [("/d", "o"), ("/e", "o")])).anyStep
      (.append "a" (bindContainer ["/d", "/e"]) {}) rfl).anyStep (.remove "a" {}) rfl
  have hcontainers : (removeContainer {} "a"
      (appendBind "a" ["/d", "/e"] (restoredSandbox [("/d", "o"), ("/e", "o")]))).1.containers =
        ∅ := by
    decide
  have horphans : (removeContainer {} "a" (appendBind "a" ["/d", "/e"]
      (restoredSandbox [("/d", "o"), ("/e", "o")]))).1.orphanContainerIds = [] := by
    decide
  refine ⟨_, hr, ?_, hcontainers, horphans, by decide⟩
  intro howned
  exact absurd (howned.2 hcontainers horphans) (by decide)

end Kuasar.Storages

import Kuasar.Sandbox.StorageIds

/-!
# Sandbox.StorageReferences — live containers hold the storages they use

The rewritten spec of a container names storages by their mount points. The container has to be
among the referrers of each of them, or the collector may detach a storage in use.

References are taken by `attachStorage`, which searches by source identity, and the spec is
rewritten by `storageHandler`, which searches by source and type. Where the two searches come to
the same storage (`Agrees`), a container refers to every storage its spec names.
-/

namespace Kuasar.Storages

open Sandbox FirstMatch Chain

/-! ## What attaching does to the storages -/

/-- `y` is `x` with other references. -/
def Storage.Same (x y : Storage) : Prop := y = { x with refContainer := y.refContainer }

theorem Storage.Same.refl (x : Storage) : x.Same x := rfl

variable {x y : Storage} {c k : String} {m : Mount} {r : Bool} {s s' : Sandbox}
  {ae : Option AttachError} {orphans : List String} {d : DetachOutcomes} {p : Storage → Bool}
  {f : Storage → Storage} {i : ℕ} {o : AppendOutcomes} {option : ContainerOption}

theorem Storage.Same.trans {z : Storage} (h : x.Same y) (h' : y.Same z) : x.Same z := by
  rw [h] at h'
  exact h'

theorem Storage.Same.isForMount (h : x.Same y) (m : Mount) : y.isForMount m = x.isForMount m := by
  rw [h]
  rfl

theorem Storage.Same.reusable (h : x.Same y) (m : Mount) (r : Bool) :
    Storages.reusable m r y = Storages.reusable m r x := by
  rw [h]
  rfl

theorem Storage.same_defer (c : String) (x : Storage) : x.Same (x.defer c) := rfl

/-- `f` adds a reference of `c`, and drops at most references of orphans. -/
structure Refers (c : String) (orphans : List String) (f : Storage → Storage) : Prop where
  same : ∀ x : Storage, x.Same (f x)
  refers : ∀ x, c ∈ (f x).refContainer
  keeps : ∀ x k, k ∉ orphans → k ∈ x.refContainer → k ∈ (f x).refContainer
  adds : ∀ x k, k ∈ (f x).refContainer → k = c ∨ k ∈ x.refContainer

theorem refers_refer (c : String) (orphans : List String) : Refers c orphans (Storage.refer c) where
  same := fun _ => rfl
  refers := fun x => Multiset.mem_cons_self c x.refContainer
  keeps := fun _ _ _ hk => Multiset.mem_cons_of_mem hk
  adds := fun _ _ hk => Multiset.mem_cons.mp hk

theorem refers_takeOver {orphan : String} (h : orphan ∈ orphans) :
    Refers c orphans fun x => (x.defer orphan).refer c where
  same := fun _ => rfl
  refers := fun x => Multiset.mem_cons_self c _
  keeps := by
    intro x k hk hmem
    refine Multiset.mem_cons_of_mem (Multiset.mem_filter.mpr ⟨hmem, ?_⟩)
    rintro rfl
    exact hk h
  adds := by
    intro x k hk
    rcases Multiset.mem_cons.mp hk with hk | hk
    · exact .inl hk
    · exact .inr (Multiset.mem_filter.mp hk).1

/-- Attaching leaves the storages as they are, refers to the first that can be reused, or adds
one. Only a mount that needs no storage is attached without. -/
theorem attach_storages (h : Attach c m r s s' ae) :
    (s'.storages = s.storages ∧ (ae = none → s.storages.findIdx? (reusable m r) = none)) ∨
      (∃ f, Refers c s.orphanContainerIds f ∧
        s'.storages = updateFirst (reusable m r) f s.storages) ∨
      (∃ x, NewFor (storageId s.incrementId.idGenerator) c m x ∧
        s'.storages = s.storages ++ [x] ∧ s.storages.findIdx? (reusable m r) = none) := by
  cases h with
  | adopted orphan g hcand hguest h =>
    exact .inr (.inl ⟨_, refers_takeOver hcand.1, by rw [h]⟩)
  | refused orphan g hcand hguest h => exact .inl ⟨by rw [h], by simp⟩
  | reused x hx hfree h => exact .inr (.inl ⟨_, refers_refer c _, by rw [h]⟩)
  | made e hnone h =>
    have hnone : s.storages.findIdx? (reusable m r) = none := by
      rw [List.findIdx?_eq_none_iff]
      intro x hx
      simpa using List.find?_eq_none.mp hnone x hx
    cases h with
    | none h =>
      rw [h]
      exact .inl ⟨rfl, fun _ => hnone⟩
    | pushed h =>
      obtain ⟨x, hx, ⟨-, rfl⟩ | ⟨-, -, rfl⟩⟩ := h
      · exact .inr (.inr ⟨x, hx, rfl, hnone⟩)
      · exact .inr (.inr ⟨x, hx, rfl, hnone⟩)
    | failed e he h => rcases h with rfl | rfl <;> exact .inl ⟨rfl, by simp⟩
    | leaked hnew h =>
      rw [h]
      exact .inl ⟨rfl, by simp⟩

/-- A storage after attaching was there, has got a reference of the container, or is the new one. -/
theorem attach_mem (h : Attach c m r s s' ae) (hy : y ∈ s'.storages) :
    y ∈ s.storages ∨ (∃ x ∈ s.storages, x.Same y ∧ c ∈ y.refContainer) ∨
      NewFor (storageId s.incrementId.idGenerator) c m y := by
  rcases attach_storages h with ⟨heq, -⟩ | ⟨f, hf, heq⟩ | ⟨x, hx, heq, -⟩ <;> rw [heq] at hy
  · exact .inl hy
  · rcases mem_updateFirst hy with hy | ⟨x, hx, rfl⟩
    · exact .inl hy
    · exact .inr (.inl ⟨x, List.mem_of_find?_eq_some hx, hf.same x, hf.refers x⟩)
  · rcases mem_concat.mp hy with hy | rfl
    · exact .inl hy
    · exact .inr (.inr hx)

/-- Orphans are only taken off the list. -/
theorem attach_orphans (h : Attach c m r s s' ae) :
    ∀ k ∈ s'.orphanContainerIds, k ∈ s.orphanContainerIds := by
  intro k hk
  cases h with
  | adopted orphan g hcand hguest h =>
    rw [h] at hk
    exact (List.mem_filter.mp hk).1
  | refused orphan g hcand hguest h | reused x hx hfree h =>
    rw [h] at hk
    exact hk
  | made e hnone h =>
    rw [h.frame.2.1] at hk
    exact hk

/-- A storage that could not be attached leaves the others as they are. -/
theorem attach_error_storages {ae : AttachError} (h : Attach c m r s s' (some ae)) :
    s'.storages = s.storages := by
  cases h with
  | refused orphan g hcand hguest h => rw [h]
  | made e hnone h =>
    cases h with
    | failed e he h => rcases h with rfl | rfl <;> rfl
    | leaked hnew h =>
      rw [h]
      rfl

/-- Storages keep their positions, and only `c` gets new references. -/
theorem attach_old (h : Attach c m r s s' ae) (hy : s'.storages[i]? = some y)
    (hk : k ∈ y.refContainer) (hkc : k ≠ c) :
    ∃ x, s.storages[i]? = some x ∧ x.Same y ∧ k ∈ x.refContainer := by
  rcases attach_storages h with ⟨heq, -⟩ | ⟨f, hf, heq⟩ | ⟨x, hx, heq, -⟩
  · rw [heq] at hy
    exact ⟨y, hy, .refl y, hk⟩
  · rw [heq, getElem?_updateFirst] at hy
    split at hy
    · obtain ⟨x, hx, rfl⟩ := Option.map_eq_some_iff.mp hy
      exact ⟨x, hx, hf.same x, (hf.adds x k hk).resolve_left hkc⟩
    · exact ⟨y, hy, .refl y, hk⟩
  · rw [heq, List.getElem?_append] at hy
    split at hy
    · exact ⟨y, hy, .refl y, hk⟩
    · rw [List.mem_singleton.mp (List.mem_of_getElem? hy), hx.refContainer,
        Multiset.mem_singleton] at hk
      exact absurd hk hkc

/-- A search that does not look at the references finds its storage at the same position. -/
theorem attach_findIdx? (hp : ∀ x y : Storage, x.Same y → p y = p x)
    (h : Attach c m r s s' ae) (hi : s.storages.findIdx? p = some i) :
    s'.storages.findIdx? p = some i := by
  rcases attach_storages h with ⟨heq, -⟩ | ⟨f, hf, heq⟩ | ⟨x, hx, heq, -⟩
  · rw [heq]
    exact hi
  · rw [heq, findIdx?_updateFirst fun y => hp y (f y) (hf.same y)]
    exact hi
  · rw [heq, List.findIdx?_append, hi]
    rfl

/-! ## References that stay -/

/-- Wherever `k` holds a storage, it still does. -/
def KeepsRef (k : String) (s s' : Sandbox) : Prop :=
  ∀ x ∈ s.storages, k ∈ x.refContainer → ∃ y ∈ s'.storages, y.id = x.id ∧ k ∈ y.refContainer

theorem KeepsRef.trans {s'' : Sandbox} (h : KeepsRef k s s') (h' : KeepsRef k s' s'') :
    KeepsRef k s s'' := by
  intro x hx hk
  obtain ⟨y, hy, hid, hky⟩ := h x hx hk
  obtain ⟨z, hz, hid', hkz⟩ := h' y hy hky
  exact ⟨z, hz, hid'.trans hid, hkz⟩

theorem KeepsRef.of_storages_eq (h : s'.storages = s.storages) : KeepsRef k s s' := by
  intro x hx hk
  rw [h]
  exact ⟨x, hx, rfl, hk⟩

theorem keepsRef_updateFirst (hsame : ∀ x : Storage, x.Same (f x))
    (hkeeps : ∀ x, k ∈ x.refContainer → k ∈ (f x).refContainer)
    (h : s'.storages = updateFirst p f s.storages) : KeepsRef k s s' := by
  intro x hx hk
  rw [h]
  rcases mem_updateFirst_of_mem (p := p) (f := f) hx with hx | ⟨-, hx⟩
  · exact ⟨x, hx, rfl, hk⟩
  · exact ⟨f x, hx, by rw [hsame x], hkeeps x hk⟩

theorem attach_keepsRef (h : Attach c m r s s' ae) (hk : k ∉ s.orphanContainerIds) :
    KeepsRef k s s' := by
  rcases attach_storages h with ⟨heq, -⟩ | ⟨f, hf, heq⟩ | ⟨x, -, heq, -⟩
  · exact .of_storages_eq heq
  · exact keepsRef_updateFirst hf.same (fun x => hf.keeps x k hk) heq
  · intro y hy hky
    rw [heq]
    exact ⟨y, List.mem_append_left _ hy, rfl, hky⟩

theorem gcStorages_keepsRef (hn : s.Numbered) : KeepsRef k s (gcStorages d s).1 := by
  intro x hx hk
  refine ⟨x, mem_gcStorages hn.ids_nodup hx ?_, rfl, hk⟩
  intro hzero
  rw [hzero] at hk
  exact absurd hk (Multiset.notMem_zero k)

theorem mem_defer : k ∈ (x.defer c).refContainer ↔ k ∈ x.refContainer ∧ k ≠ c :=
  Multiset.mem_filter

theorem deferenceStorage_keepsRef (hkc : k ≠ c) (hn : s.Numbered) :
    KeepsRef k s (deferenceStorage d c m s).1 := by
  have hdrop : ∀ x : Storage, k ∈ x.refContainer → k ∈ (x.defer c).refContainer :=
    fun x hk => mem_defer.mpr ⟨hk, hkc⟩
  refine (keepsRef_updateFirst (f := Storage.defer c) (fun x => Storage.same_defer c x) hdrop
    rfl).trans (gcStorages_keepsRef ?_)
  refine hn.congr ?_ (Nat.le_refl s.idGenerator)
  apply map_updateFirst
  intro y
  rfl

theorem deferenceContainerStorages_keepsRef (hkc : k ≠ c) (hn : s.Numbered) :
    KeepsRef k s (deferenceContainerStorages d c s).1 := by
  have hmap : KeepsRef k s { s with storages := s.storages.map (Storage.defer c) } := by
    intro x hx hk
    exact ⟨x.defer c, List.mem_map.mpr ⟨x, hx, rfl⟩, rfl, mem_defer.mpr ⟨hk, hkc⟩⟩
  refine hmap.trans (gcStorages_keepsRef ?_)
  refine hn.congr ?_ (Nat.le_refl s.idGenerator)
  simp [thin, Function.comp_def, Storage.defer]

/-! ## Storages that are found -/

/-- The container refers to the storage at a position. -/
def HoldsAt (c : String) (s : Sandbox) (i : ℕ) : Prop :=
  ∃ x, s.storages[i]? = some x ∧ c ∈ x.refContainer

/-- If a storage is found for the mount, the container refers to it. -/
def Served (c : String) (m : Mount) (s : Sandbox) : Prop :=
  ∀ i, s.storages.findIdx? (·.isForMount m) = some i → HoldsAt c s i

/-- If a storage is found for the mount, the container refers to it or will reuse it. -/
def Ready (c : String) (m : Mount) (r : Bool) (s : Sandbox) : Prop :=
  ∀ i, s.storages.findIdx? (·.isForMount m) = some i →
    HoldsAt c s i ∨ s.storages.findIdx? (reusable m r) = some i

theorem holdsAt_updateFirst (hf : Refers c orphans f)
    (h : s'.storages = updateFirst p f s.storages)
    (hi : HoldsAt c s i ∨ s.storages.findIdx? p = some i) : HoldsAt c s' i := by
  unfold HoldsAt
  rw [h, getElem?_updateFirst]
  split
  · rename_i hp
    have hlt : i < s.storages.length := (List.findIdx?_eq_some_iff_getElem.mp hp).1
    exact ⟨f s.storages[i], by simp [hlt], hf.refers _⟩
  · rename_i hp
    exact hi.resolve_right hp

theorem holdsAt_concat (h : s'.storages = s.storages ++ [x]) (hi : HoldsAt c s i) :
    HoldsAt c s' i := by
  obtain ⟨y, hy, hc⟩ := hi
  refine ⟨y, ?_, hc⟩
  rw [h, List.getElem?_append_left (List.getElem?_eq_some_iff.mp hy).1]
  exact hy

variable {m' : Mount} {r' : Bool}

/-- What attaching another mount does to the storage that is found for a mount: it is a new one
of the container, or the one found before, where a reference stays. -/
theorem attach_found (h : Attach c m' r' s s' ae)
    (hi : s'.storages.findIdx? (·.isForMount m) = some i) :
    HoldsAt c s' i ∨ (s.storages.findIdx? (·.isForMount m) = some i ∧ ¬ HoldsAt c s i ∧
      ∀ r, s.storages.findIdx? (reusable m r) = some i →
        s'.storages.findIdx? (reusable m r) = some i) := by
  by_cases hheld : HoldsAt c s i
  · -- a reference stays
    refine .inl ?_
    rcases attach_storages h with ⟨heq, -⟩ | ⟨f, hf, heq⟩ | ⟨x, -, heq, -⟩
    · unfold HoldsAt
      rw [heq]
      exact hheld
    · exact holdsAt_updateFirst hf heq (.inl hheld)
    · exact holdsAt_concat heq hheld
  · have hreuse : ∀ r, s.storages.findIdx? (reusable m r) = some i →
        s'.storages.findIdx? (reusable m r) = some i :=
      fun r hr => attach_findIdx? (fun x y hxy => hxy.reusable m r) h hr
    rcases attach_storages h with ⟨heq, -⟩ | ⟨f, hf, heq⟩ | ⟨x, hx, heq, -⟩
    · rw [heq] at hi
      exact .inr ⟨hi, hheld, hreuse⟩
    · rw [heq, findIdx?_updateFirst fun y => (hf.same y).isForMount m] at hi
      exact .inr ⟨hi, hheld, hreuse⟩
    · rw [heq, List.findIdx?_append] at hi
      rcases hold : s.storages.findIdx? (·.isForMount m) with _ | j
      · -- the new storage is the one found
        refine .inl ⟨x, ?_, ?_⟩
        · rw [hold] at hi
          have hlen : i = s.storages.length := by
            rcases hxm : x.isForMount m with _ | _ <;> simp [List.findIdx?_cons, hxm] at hi
            omega
          rw [heq, hlen, List.getElem?_concat_length]
        · rw [hx.refContainer]
          exact Multiset.mem_singleton_self c
      · rw [hold] at hi
        exact .inr ⟨by rw [hold]; exact hi, hheld, hreuse⟩

theorem attach_served (h : Attach c m' r' s s' ae) (hserved : Served c m s) : Served c m s' := by
  intro i hi
  rcases attach_found h hi with hheld | ⟨hi', hheld, -⟩
  · exact hheld
  · exact absurd (hserved i hi') hheld

theorem attach_ready (h : Attach c m' r' s s' ae) (hready : Ready c m r s) :
    Ready c m r s' := by
  intro i hi
  rcases attach_found h hi with hheld | ⟨hi', hheld, hkeep⟩
  · exact .inl hheld
  · exact .inr (hkeep r ((hready i hi').resolve_left hheld))

theorem served_of_attach (h : Attach c m r s s' none) (hready : Ready c m r s) :
    Served c m s' := by
  intro i hi
  rcases attach_found h hi with hheld | ⟨hi', hheld, -⟩
  · exact hheld
  · have hreuse := (hready i hi').resolve_left hheld
    rcases attach_storages h with ⟨-, hnone⟩ | ⟨f, hf, heq⟩ | ⟨x, -, -, hnone⟩
    · rw [hnone rfl] at hreuse
      cases hreuse
    · exact holdsAt_updateFirst hf heq (.inr hreuse)
    · rw [hnone] at hreuse
      cases hreuse

/-- After a run the container refers to the storages that are found for its mounts. -/
theorem attachRun_served {calls : List MountCall} (h : AttachRun c calls s s')
    (hm : Served c m s ∨ ∃ call ∈ calls, call.mount = m ∧ Ready c m call.isRootfsMount s) :
    Served c m s' := by
  induction h with
  | nil =>
    rcases hm with hm | ⟨call, hcall, -⟩
    · exact hm
    · cases hcall
  | cons h _ ih =>
    apply ih
    rcases hm with hm | ⟨call, hcall, rfl, hready⟩
    · exact .inl (attach_served h hm)
    · rcases List.mem_cons.mp hcall with rfl | hcall
      · exact .inl (served_of_attach h hready)
      · exact .inr ⟨call, hcall, rfl, attach_ready h hready⟩

theorem Served.mem (h : Served c m s) (hx : s.storages.find? (·.isForMount m) = some x) :
    c ∈ x.refContainer := by
  obtain ⟨i, hi, hxi⟩ := find?_eq_some_iff_getElem?.mp hx
  obtain ⟨y, hy, hc⟩ := h i hi
  rw [hxi] at hy
  cases hy
  exact hc

/-! ## What appending does to the rest of the sandbox -/

/-- A later state: the counter moved on, and every storage is one from before, with other
references, or has a new id. -/
def Descends (s s' : Sandbox) : Prop :=
  s.idGenerator ≤ s'.idGenerator ∧ ∀ y ∈ s'.storages,
    (∃ x ∈ s.storages, x.Same y) ∨ (y.Releasable ∧ ∃ n, s.idGenerator < n ∧ y.id = storageId n)

theorem Descends.trans {s'' : Sandbox} (h : Descends s s') (h' : Descends s' s'') :
    Descends s s'' := by
  refine ⟨h.1.trans h'.1, ?_⟩
  intro z hz
  rcases h'.2 z hz with ⟨y, hy, hyz⟩ | ⟨hrel, n, hn, hid⟩
  · rcases h.2 y hy with ⟨x, hx, hxy⟩ | ⟨hrel, n, hn, hid⟩
    · exact .inl ⟨x, hx, hxy.trans hyz⟩
    · refine .inr ⟨?_, n, hn, ?_⟩
      · rw [hyz]
        exact hrel
      · rw [hyz]
        exact hid
  · exact .inr ⟨hrel, n, Nat.lt_of_le_of_lt h.1 hn, hid⟩

theorem attach_descends (hroom : s.idGenerator + 2 < 2 ^ 32) (h : Attach c m r s s' ae) :
    Descends s s' := by
  refine ⟨(attach_advances h hroom).1, ?_⟩
  intro y hy
  rcases attach_mem h hy with hy | ⟨x, hx, hsame, -⟩ | hnew
  · exact .inl ⟨y, hy, .refl y⟩
  · exact .inl ⟨x, hx, hsame⟩
  · have hnext := @idGenerator_incrementId s (by omega)
    exact .inr ⟨hnew.releasable, s.incrementId.idGenerator, by omega, hnew.id_eq⟩

/-- References were dropped, and the collector ran. -/
theorem gcStorages_descends (hg : s.idGenerator ≤ s'.idGenerator)
    (hsame : ∀ y ∈ s'.storages, ∃ x ∈ s.storages, x.Same y) : Descends s (gcStorages d s').1 := by
  refine ⟨by rw [gcStorages_fst]; exact hg, ?_⟩
  intro y hy
  exact .inl (hsame y (gcStorages_sublist.subset hy))

theorem deferenceStorage_descends : Descends s (deferenceStorage d c m s).1 := by
  refine gcStorages_descends (Nat.le_refl s.idGenerator) ?_
  intro y hy
  rcases mem_updateFirst hy with hy | ⟨x, hx, rfl⟩
  · exact ⟨y, hy, .refl y⟩
  · exact ⟨x, List.mem_of_find?_eq_some hx, x.same_defer c⟩

theorem deferenceContainerStorages_descends : Descends s (deferenceContainerStorages d c s).1 := by
  refine gcStorages_descends (Nat.le_refl s.idGenerator) ?_
  intro y hy
  obtain ⟨x, hx, rfl⟩ := List.mem_map.mp hy
  exact ⟨x, hx, x.same_defer c⟩

theorem append_descends (hroom : Room option s) : Descends s (appendContainer o c option s).1 := by
  refine append_rel ?_ ?_ ?_ ?_ hroom
  · intro s s' s'' h h'
    exact h.trans h'
  · intro m r s s' ae _ hroom h
    exact attach_descends hroom h
  · intro n s s' hroom h
    refine ⟨(h.advances hroom).1, ?_⟩
    intro y hy
    rw [h.storages] at hy
    exact .inl ⟨y, hy, .refl y⟩
  · intro m s
    exact deferenceStorage_descends

/-- A container of another name is left alone, and no orphan is added. -/
theorem append_others (hroom : Room option s) :
    (∀ k, k ≠ c → (appendContainer o c option s).1.containers.lookup k = s.containers.lookup k) ∧
      ∀ k ∈ (appendContainer o c option s).1.orphanContainerIds, k ∈ s.orphanContainerIds := by
  refine append_rel (R := fun s s' =>
    (∀ k, k ≠ c → s'.containers.lookup k = s.containers.lookup k) ∧
      ∀ k ∈ s'.orphanContainerIds, k ∈ s.orphanContainerIds) ?_ ?_ ?_ ?_ hroom
  · intro s s' s'' h h'
    exact ⟨fun k hk => (h'.1 k hk).trans (h.1 k hk), fun k hk => h.2 k (h'.2 k hk)⟩
  · intro m r s s' ae _ _ h
    exact ⟨fun k _ => by rw [attach_containers h], attach_orphans h⟩
  · intro n s s' _ h
    refine ⟨?_, fun k hk => h.orphans ▸ hk⟩
    intro k hk
    rw [← Finmap.lookup_erase_ne hk, h.containers, Finmap.lookup_erase_ne hk]
  · intro m s
    rw [deferenceStorage, gcStorages_fst]
    exact ⟨fun _ _ => rfl, fun _ hk => hk⟩

theorem append_keepsRef (hroom : Room option s) (hkc : k ≠ c) (hn : s.Numbered)
    (hk : k ∉ s.orphanContainerIds) : KeepsRef k s (appendContainer o c option s).1 := by
  refine (append_rel (R := fun s s' => s.Numbered → k ∉ s.orphanContainerIds →
    s'.Numbered ∧ k ∉ s'.orphanContainerIds ∧ KeepsRef k s s') ?_ ?_ ?_ ?_ hroom hn hk).2.2
  · intro s s' s'' h h' hn hk
    obtain ⟨hn', hk', hkeep⟩ := h hn hk
    obtain ⟨hn'', hk'', hkeep'⟩ := h' hn' hk'
    exact ⟨hn'', hk'', hkeep.trans hkeep'⟩
  · intro m r s s' ae _ hroom h hn hk
    exact ⟨attach_numbered h hroom hn, fun hmem => hk (attach_orphans h k hmem),
      attach_keepsRef h hk⟩
  · intro n s s' hroom h hn hk
    exact ⟨quiet_numbered h hroom hn, h.orphans ▸ hk, .of_storages_eq h.storages⟩
  · intro m s hn hk
    refine ⟨deferenceStorage_numbered hn, ?_, deferenceStorage_keepsRef hkc hn⟩
    rw [deferenceStorage, gcStorages_fst]
    exact hk

theorem appendContainer_fst (o : AppendOutcomes) (c : String) (option : ContainerOption)
    (s : Sandbox) :
    (appendContainer o c option s).1 = (run (appendHandlers o c option) s).1 := by
  unfold appendContainer
  rcases run (appendHandlers o c option) s with ⟨s', _ | e⟩
  · dsimp only
    split <;> rfl
  · rfl

/-- What removing a container comes to: its references are dropped, and it is forgotten unless the
removal stops before. -/
theorem remove_cases (o : RemoveOutcomes) (c : String) (s : Sandbox) :
    ∃ s₁ ok devices, deferenceContainerStorages o.detach c s = (s₁, ok) ∧
      (removeContainer o c s).1 = { s with
        storages := s₁.storages
        devices := devices
        containers := if ok && o.bundle then s.containers.erase c else s.containers } := by
  rcases h : deferenceContainerStorages o.detach c s with ⟨s₁, ok⟩
  have hfst : s₁ = { s with storages := s₁.storages, devices := s₁.devices } := by
    have := @gcStorages_fst o.detach { s with storages := s.storages.map (Storage.defer c) }
    rw [show gcStorages o.detach { s with storages := s.storages.map (Storage.defer c) } = _ from h]
      at this
    exact this
  rcases removeContainer_cases h with ⟨hok, heq⟩ | ⟨hok, devices, heq⟩
  · refine ⟨s₁, ok, s₁.devices, rfl, ?_⟩
    rw [heq, hok]
    exact hfst
  · refine ⟨s₁, ok, devices, rfl, ?_⟩
    rw [heq, hok, hfst]
    rfl

theorem append_error_lookup {e : AppendError}
    (h : run (appendHandlers o c option) s = (s', some e)) :
    s'.containers.lookup c = none := by
  rcases append_error h with ⟨-, rfl⟩ | ⟨done, rest, s₁, s₂, -, -, rfl, -⟩ <;>
    exact Finmap.lookup_erase c _

/-! ## Live containers hold the storages they use -/

/-- A sandbox without containers: a new one, or one restored from a template, whose storages are
those of its orphans. -/
structure Started (s : Sandbox) : Prop where
  containers : s.containers = ∅
  numbered : s.Numbered
  releasable : ∀ x ∈ s.storages, x.Releasable
  referenced : ∀ x ∈ s.storages, x.refContainer ≠ 0
  owned : ∀ x ∈ s.storages, ∀ k ∈ x.refContainer, k ∈ s.orphanContainerIds

def Container.names (k : Container) : List String := k.sources ++ k.roots.map Prod.snd

/-- Every storage that the spec of a live container names is there, and the container refers to
it. -/
def Used (s : Sandbox) : Prop :=
  ∀ c k, s.containers.lookup c = some k → ∀ id ∈ k.names,
    ∃ x ∈ s.storages, x.id = id ∧ c ∈ x.refContainer

/-- The storage that is found for a mount by its source and type is the one to reuse. -/
def Agrees (m : Mount) (r : Bool) (s : Sandbox) : Prop :=
  ∀ i, s.storages.findIdx? (·.isForMount m) = some i → s.storages.findIdx? (reusable m r) = some i

/-- The two searches agree on the mounts of a new container, which has not the name of an orphan;
a removal goes through. -/
def UseSafe (l : Label) (s : Sandbox) : Prop :=
  match l with
  | .append c option _ => c ∉ s.orphanContainerIds ∧ Room option s ∧
      ∀ p ∈ option.mounts, Agrees p.1 p.2 s
  | .remove _ o => o.detach.Succeed ∧ o.bundle = true
  | .create _ _ _ => True

/-- The invariant: besides the references, the storages can be collected, and no live container is
taken for an orphan. -/
structure UseInv (s : Sandbox) : Prop where
  numbered : s.Numbered
  releasable : ∀ x ∈ s.storages, x.Releasable
  known : ∀ c ∈ s.containers, c ∉ s.orphanContainerIds
  used : Used s

theorem releasable_of_descends (h : Descends s s') (hrel : ∀ x ∈ s.storages, x.Releasable) :
    ∀ x ∈ s'.storages, x.Releasable := by
  intro y hy
  rcases h.2 y hy with ⟨x, hx, hxy⟩ | ⟨hnew, -⟩
  · rw [hxy]
    exact hrel x hx
  · exact hnew

theorem deferenceContainerStorages_ok (hd : d.Succeed) (hrel : ∀ x ∈ s.storages, x.Releasable)
    (hn : s.Numbered) : (deferenceContainerStorages d c s).2 = true := by
  unfold deferenceContainerStorages
  rw [gcStorages_eq hd]
  · intro y hy
    obtain ⟨x, hx, rfl⟩ := List.mem_map.mp hy
    exact hrel x hx
  · rw [List.map_map]
    exact hn.ids_nodup

theorem mem_rootStorages {storages : List Storage} {rootfs : List Mount}
    {roots : List (Mount × Storage)} (h : rootStorages storages rootfs = some roots)
    {p : Mount × Storage} (hp : p ∈ roots) :
    p.1 ∈ rootfs ∧ storages.find? (·.isForMount p.1) = some p.2 := by
  unfold rootStorages at h
  induction rootfs generalizing roots with
  | nil =>
    cases h
    cases hp
  | cons m rootfs ih =>
    rw [List.mapM_cons, Option.bind_eq_bind, Option.bind_eq_some_iff] at h
    obtain ⟨root, hroot, h⟩ := h
    rw [Option.bind_eq_bind, Option.bind_eq_some_iff] at h
    obtain ⟨roots', hroots', h⟩ := h
    cases h
    rcases List.mem_cons.mp hp with rfl | hp
    · obtain ⟨x, hx, rfl⟩ := Option.map_eq_some_iff.mp hroot
      exact ⟨List.mem_cons_self, hx⟩
    · obtain ⟨hmem, hfind⟩ := ih hroots' hp
      exact ⟨List.mem_cons_of_mem m hmem, hfind⟩

theorem find?_of_sourceStorage {storages : List Storage} (h : sourceStorage storages m = some x) :
    storages.find? (·.isForMount m) = some x := by
  unfold sourceStorage at h
  split at h
  · cases h
  · exact h

/-- Every mount of the container is attached. -/
theorem mem_calls {p : Mount × Bool} (hp : p ∈ option.mounts) :
    ∃ call ∈ option.calls o, call.mount = p.1 ∧ call.isRootfsMount = p.2 := by
  obtain ⟨i, hi, rfl⟩ := List.mem_iff_getElem.mp hp
  refine ⟨⟨i, _, _, o.host i⟩, ?_, rfl, rfl⟩
  unfold ContainerOption.calls
  rw [List.mem_mapIdx]
  exact ⟨i, hi, rfl⟩

/-- The storages that the spec of a new container names are those found for its mounts, and the
container refers to them. -/
theorem append_own_used {k : Container} {id : String}
    (h : run (appendHandlers o c option) s = (s', none))
    (hagree : ∀ p ∈ option.mounts, Agrees p.1 p.2 s) (hk : s'.containers.lookup c = some k)
    (hid : id ∈ k.names) : ∃ x ∈ s'.storages, x.id = id ∧ c ∈ x.refContainer := by
  obtain ⟨s₁, roots, k', hrun, hroots, hq, hk', hsources, hkroots⟩ := append_ok h
  rw [hk] at hk'
  cases hk'
  have hfound : ∀ p ∈ option.mounts, ∀ x, s₁.storages.find? (·.isForMount p.1) = some x →
      ∃ y ∈ s'.storages, y.id = x.id ∧ c ∈ y.refContainer := by
    intro p hp x hx
    obtain ⟨call, hcall, hmount, hroot⟩ := @mem_calls o option p hp
    have hready : Ready c p.1 call.isRootfsMount (s.withContainer c option) := by
      intro i hi
      rw [hroot]
      exact .inr (hagree p hp i hi)
    have hserved := attachRun_served hrun (.inr ⟨call, hcall, hmount, hready⟩)
    rw [hq.storages]
    exact ⟨x, List.mem_of_find?_eq_some hx, rfl, hserved.mem hx⟩
  unfold Container.names at hid
  rw [hsources, hkroots] at hid
  rcases List.mem_append.mp hid with hid | hid
  · -- the source of a mount
    obtain ⟨m, hm, hid⟩ := List.mem_filterMap.mp hid
    obtain ⟨x, hx, rfl⟩ := Option.map_eq_some_iff.mp hid
    exact hfound (m, false) (List.mem_append_right _ (List.mem_map.mpr ⟨m, hm, rfl⟩)) x
      (find?_of_sourceStorage hx)
  · -- the root
    rw [List.map_map] at hid
    obtain ⟨p, hp, rfl⟩ := List.mem_map.mp hid
    obtain ⟨hmem, hx⟩ := mem_rootStorages hroots hp
    exact hfound (p.1, true) (List.mem_append_left _ (List.mem_map.mpr ⟨p.1, hmem, rfl⟩)) p.2 hx

namespace UseInv

theorem of_started (h : Started s) : UseInv s where
  numbered := h.numbered
  releasable := h.releasable
  known := by
    intro c hc
    rw [h.containers] at hc
    exact absurd hc Finmap.notMem_empty
  used := by
    intro c k hk
    rw [h.containers] at hk
    cases hk

theorem append (hsafe : UseSafe (.append c option o) s) (hinv : UseInv s) :
    UseInv (appendContainer o c option s).1 := by
  obtain ⟨hc, hroom, hagree⟩ := hsafe
  obtain ⟨hlookup, horphans⟩ := @append_others c s o option hroom
  have hlive : ∀ k, k ≠ c → k ∈ (appendContainer o c option s).1.containers → k ∈ s.containers := by
    intro k hkc hk
    obtain ⟨rec, hrec⟩ := Finmap.mem_iff.mp hk
    rw [hlookup k hkc] at hrec
    exact Finmap.mem_of_lookup_eq_some hrec
  refine ⟨appendContainer_numbered hroom hinv.numbered,
    releasable_of_descends (append_descends hroom) hinv.releasable, ?_, ?_⟩
  · intro k hk hmem
    by_cases hkc : k = c
    · exact hc (hkc ▸ horphans k hmem)
    · exact hinv.known k (hlive k hkc hk) (horphans k hmem)
  · intro k rec hrec id hid
    by_cases hkc : k = c
    · rw [hkc] at hrec ⊢
      rw [appendContainer_fst] at hrec ⊢
      rcases h : run (appendHandlers o c option) s with ⟨s', _ | e⟩ <;> rw [h] at hrec
      · exact append_own_used h hagree hrec hid
      · rw [append_error_lookup h] at hrec
        cases hrec
    · have hk : k ∈ s.containers := hlive k hkc (Finmap.mem_of_lookup_eq_some hrec)
      rw [hlookup k hkc] at hrec
      obtain ⟨x, hx, hxid, hkx⟩ := hinv.used k rec hrec id hid
      obtain ⟨y, hy, hyid, hky⟩ :=
        append_keepsRef (o := o) hroom hkc hinv.numbered (hinv.known k hk) x hx hkx
      exact ⟨y, hy, hyid.trans hxid, hky⟩

theorem remove {o : RemoveOutcomes} (hsafe : UseSafe (.remove c o) s) (hinv : UseInv s) :
    UseInv (removeContainer o c s).1 := by
  obtain ⟨hdetach, hbundle⟩ := hsafe
  have hn := @removeContainer_numbered c s o hinv.numbered
  obtain ⟨s₁, ok, devices, h, heq⟩ := remove_cases o c s
  have hok : ok = true := by
    have := deferenceContainerStorages_ok (c := c) hdetach hinv.releasable hinv.numbered
    rwa [h] at this
  rw [hok, hbundle, Bool.and_self, if_pos rfl] at heq
  rw [heq] at hn ⊢
  have hdesc : Descends s s₁ := by
    have := @deferenceContainerStorages_descends c s o.detach
    rwa [h] at this
  refine ⟨hn, ?_, ?_, ?_⟩
  · exact (releasable_of_descends hdesc hinv.releasable : ∀ x ∈ s₁.storages, x.Releasable)
  · intro k hk
    exact hinv.known k (Finmap.mem_erase.mp hk).2
  · intro k rec hrec id hid
    by_cases hkc : k = c
    · rw [hkc, Finmap.lookup_erase] at hrec
      cases hrec
    · rw [Finmap.lookup_erase_ne hkc] at hrec
      obtain ⟨x, hx, hxid, hkx⟩ := hinv.used k rec hrec id hid
      have hkeep := deferenceContainerStorages_keepsRef (d := o.detach) hkc hinv.numbered
      rw [h] at hkeep
      obtain ⟨y, hy, hyid, hky⟩ := hkeep x hx hkx
      exact ⟨y, hy, hyid.trans hxid, hky⟩

theorem step {l : Label} (hsafe : UseSafe l s) (h : next l s s') (hinv : UseInv s) : UseInv s' := by
  cases l with
  | append c option o =>
    cases h
    exact append hsafe hinv
  | remove c o =>
    cases h
    exact remove hsafe hinv
  | create c alive pid =>
    cases h
    exact ⟨hinv.numbered, hinv.releasable, hinv.known, hinv.used⟩

end UseInv

theorem gcStorages_used (hn : s.Numbered) (h : Used s) : Used (gcStorages d s).1 := by
  intro c k hk id hid
  rw [gcStorages_fst] at hk
  obtain ⟨x, hx, hxid, hc⟩ := h c k hk id hid
  obtain ⟨y, hy, hyid, hc'⟩ := gcStorages_keepsRef hn x hx hc
  exact ⟨y, hy, hyid.trans hxid, hc'⟩

/-- Where the two searches agree on the mounts of every new container: in every state that is
reached each storage that the spec of a live container names is there and the container refers to
it, so that no collection detaches it. -/
theorem used_storages_referenced {s : Sandbox}
    (h : Tla.Reachable Started (Tla.Guarded UseSafe next) s) :
    Used s ∧ ∀ d, Used (gcStorages d s).1 := by
  have hinv : UseInv s := by
    apply h.guarded_invariant
    · intro s hs
      exact .of_started hs
    · intro l s s' hsafe hstep hinv
      exact hinv.step hsafe hstep
  exact ⟨hinv.used, fun d => gcStorages_used hinv.numbered hinv.used⟩

def emptySandbox : Sandbox where
  containers := ∅
  guest := ⟨∅, ∅, []⟩

theorem started_emptySandbox : Started emptySandbox where
  containers := rfl
  numbered := Numbered.nil 0
  releasable := by simp [emptySandbox]
  referenced := by simp [emptySandbox]
  owned := by simp [emptySandbox]

def overlayContainer (lower upper : String) : ContainerOption where
  rootfs := [⟨"/", "overlay", "overlay", ["lowerdir=" ++ lower, "upperdir=" ++ upper]⟩]
  spec := some { mounts := [], root := some "rootfs" }

/-- The sandbox with such a container. -/
def appendOverlay (c lower upper : String) (s : Sandbox) : Sandbox :=
  (appendContainer {} c (overlayContainer lower upper) s).1

/-- One container with an overlay: it refers to the storage of its root. -/
theorem used_storages_referenced_overlay :
    ((appendOverlay "a" "/l1" "/u1" emptySandbox).containers.lookup "a").map Container.names =
      some ["storage1"] ∧ Used (appendOverlay "a" "/l1" "/u1" emptySandbox) := by
  have hr : Tla.Reachable Started (Tla.Guarded UseSafe next)
      (appendOverlay "a" "/l1" "/u1" emptySandbox) := by
    refine .step (.init started_emptySandbox)
      ⟨.append "a" (overlayContainer "/l1" "/u1") {}, ⟨by simp [emptySandbox], ?_, ?_⟩, rfl⟩
    · show (0 : ℕ) + 2 * 1 + 3 < 2 ^ 32
      decide
    · intro p _ i hi
      cases hi
  exact ⟨by decide, (used_storages_referenced hr).1⟩

theorem appendOverlays_reachable (lower : String) : Tla.Reachable Started (Tla.AnyStep next)
    (appendOverlay "b" lower "/u2" (appendOverlay "a" "/l1" "/u1" emptySandbox)) :=
  ((Tla.Reachable.init started_emptySandbox).anyStep
    (.append "a" (overlayContainer "/l1" "/u1") {}) rfl).anyStep
    (.append "b" (overlayContainer lower "/u2") {}) rfl

/-- Overlays have one source. The second container of another image is given a storage of its own,
but its root names the storage of the first container, to which it does not refer. Once the first
container is removed the storage that the root names is gone. -/
theorem overlay_root_unreferenced :
    ∃ s, Tla.Reachable Started (Tla.AnyStep next) s ∧ ¬ Used s ∧
      (s.containers.lookup "b").map Container.names = some ["storage1"] ∧
      (s.storages.map fun x => (x.id, x.refContainer)) =
        [("storage1", {"a"}), ("storage2", {"b"})] ∧
      ((removeContainer {} "a" s).1.storages.map fun x => x.id) = ["storage2"] := by
  refine ⟨_, appendOverlays_reachable "/l2", ?_, by decide, by decide, by decide⟩
  intro hused
  have hk : ∃ k, (appendOverlay "b" "/l2" "/u2"
      (appendOverlay "a" "/l1" "/u1" emptySandbox)).containers.lookup "b" = some k ∧
      "storage1" ∈ k.names := by
    refine ⟨_, rfl, by decide⟩
  obtain ⟨k, hk, hid⟩ := hk
  obtain ⟨x, hx, hxid, hb⟩ := hused "b" k hk "storage1" hid
  revert x
  decide

end Kuasar.Storages

import Kuasar.Sandbox.StorageReferences

/-!
# Sandbox.RootIsolation — containers do not share a writable root

An overlay has directories it reads, those of its image, and one it writes to. The identity of an
overlay is made of the former only, so a second container of an image is given the storage of the
first, whatever directory its own overlay writes to.

Containers are kept apart where no writable storage that could be found for the root of a new
container is the root of another one (`RootsFree`). A storage that appending makes has a new id,
which no root names yet.
-/

namespace Kuasar.Storages

open Sandbox

/-- Two containers whose root overlays write to different directories share a writable storage. -/
def SharesRoot (s : Sandbox) (c₁ c₂ : String) : Prop :=
  ∃ k₁ k₂ p₁ p₂, ∃ x ∈ s.storages,
    s.containers.lookup c₁ = some k₁ ∧ s.containers.lookup c₂ = some k₂ ∧
    p₁ ∈ k₁.roots ∧ p₂ ∈ k₂.roots ∧ p₁.1.isOverlay = true ∧ p₂.1.isOverlay = true ∧
    p₁.1.upperDir ≠ p₂.1.upperDir ∧ p₁.2 = x.id ∧ p₂.2 = x.id ∧ "ro" ∉ x.options

theorem SharesRoot.symm {s : Sandbox} {c₁ c₂ : String} (h : SharesRoot s c₁ c₂) :
    SharesRoot s c₂ c₁ := by
  obtain ⟨k₁, k₂, p₁, p₂, x, hx, hk₁, hk₂, hp₁, hp₂, ho₁, ho₂, hne, hid₁, hid₂, hrw⟩ := h
  exact ⟨k₂, k₁, p₂, p₁, x, hx, hk₂, hk₁, hp₂, hp₁, ho₂, ho₁, hne.symm, hid₂, hid₁, hrw⟩

/-- No two containers share a writable root, unless one of them took the other over. -/
def Isolated (s : Sandbox) : Prop :=
  ∀ c₁ c₂, c₁ ≠ c₂ → (c₁, c₂) ∉ s.adoptions → (c₂, c₁) ∉ s.adoptions → ¬ SharesRoot s c₁ c₂

/-- The storage is not the root of a container other than `c`. -/
def NotRoot (c : String) (s : Sandbox) (x : Storage) : Prop :=
  ∀ k rec, k ≠ c → s.containers.lookup k = some rec → ∀ p ∈ rec.roots, p.2 ≠ x.id

/-- No writable storage with the source and the type of the root overlays of a new container is
the root of another one. -/
def RootsFree (l : Label) (s : Sandbox) : Prop :=
  match l with
  | .append c option _ => Room option s ∧ ∀ m ∈ option.rootfs, m.isOverlay = true →
      ∀ x ∈ s.storages, x.isForMount m = true → "ro" ∈ x.options ∨ NotRoot c s x
  | _ => True

/-- The invariant: the roots of the live containers carry numbers that were handed out. -/
structure RootInv (s : Sandbox) : Prop where
  numbered : s.Numbered
  roots : ∀ c k, s.containers.lookup c = some k → ∀ p ∈ k.roots,
    ∃ n ≤ s.idGenerator, p.2 = storageId n
  apart : ∀ c₁ c₂, c₁ ≠ c₂ → ¬ SharesRoot s c₁ c₂

namespace RootInv

variable {c : String} {s s' : Sandbox}

theorem of_started (h : Started s) : RootInv s where
  numbered := h.numbered
  roots := by
    intro c k hk
    rw [h.containers] at hk
    cases hk
  apart := by
    rintro c₁ c₂ - ⟨k₁, k₂, p₁, p₂, x, -, hk₁, -⟩
    rw [h.containers] at hk₁
    cases hk₁

/-- A storage that a root named before is one of the storages from before. -/
theorem old_storage (hinv : RootInv s) (hd : Descends s s') {k : Container}
    (hk : s.containers.lookup c = some k) {p : Mount × String} (hp : p ∈ k.roots) {x : Storage}
    (hx : x ∈ s'.storages) (hid : p.2 = x.id) : ∃ y ∈ s.storages, y.Same x := by
  rcases hd.2 x hx with hold | ⟨-, n, hn, hxid⟩
  · exact hold
  · -- the number of a new storage has not been handed out before
    obtain ⟨j, hj, hpj⟩ := hinv.roots c k hk p hp
    rw [hpj, hxid, storageId_inj] at hid
    omega

/-- Containers that are as before share no more than before. -/
theorem old_apart (hinv : RootInv s) (hd : Descends s s') {c₁ c₂ : String} (hne : c₁ ≠ c₂)
    (h₁ : ∀ k, s'.containers.lookup c₁ = some k → s.containers.lookup c₁ = some k)
    (h₂ : ∀ k, s'.containers.lookup c₂ = some k → s.containers.lookup c₂ = some k) :
    ¬ SharesRoot s' c₁ c₂ := by
  rintro ⟨k₁, k₂, p₁, p₂, x, hx, hk₁, hk₂, hp₁, hp₂, ho₁, ho₂, hup, hid₁, hid₂, hrw⟩
  obtain ⟨y, hy, hyx⟩ := hinv.old_storage hd (h₁ k₁ hk₁) hp₁ hx hid₁
  rw [hyx] at hid₁ hid₂ hrw
  exact hinv.apart c₁ c₂ hne
    ⟨k₁, k₂, p₁, p₂, y, hy, h₁ k₁ hk₁, h₂ k₂ hk₂, hp₁, hp₂, ho₁, ho₂, hup, hid₁, hid₂, hrw⟩

section Append

variable {o : AppendOutcomes} {option : ContainerOption}

/-- The roots of a new container are storages that were found for its root file system. -/
theorem append_roots {k : Container}
    (hk : (appendContainer o c option s).1.containers.lookup c = some k) {p : Mount × String}
    (hp : p ∈ k.roots) :
    p.1 ∈ option.rootfs ∧ ∃ x ∈ (appendContainer o c option s).1.storages,
      x.isForMount p.1 = true ∧ p.2 = x.id := by
  rw [appendContainer_fst] at hk ⊢
  rcases h : Chain.run (appendHandlers o c option) s with ⟨s', _ | e⟩ <;> rw [h] at hk
  · obtain ⟨s₁, roots, k', hrun, hroots, hq, hk', -, hkroots⟩ := append_ok h
    rw [hk] at hk'
    cases hk'
    rw [hkroots] at hp
    obtain ⟨r, hr, rfl⟩ := List.mem_map.mp hp
    obtain ⟨hmem, hfind⟩ := mem_rootStorages hroots hr
    have hfor := List.find?_some hfind
    refine ⟨hmem, r.2, ?_, hfor, rfl⟩
    rw [hq.storages]
    exact List.mem_of_find?_eq_some hfind
  · rw [append_error_lookup h] at hk
    cases hk

/-- The new container shares no writable root with another one. -/
theorem append_apart (hfree : RootsFree (.append c option o) s) (hinv : RootInv s) {k : String}
    (hkc : c ≠ k) : ¬ SharesRoot (appendContainer o c option s).1 c k := by
  obtain ⟨hroom, hfree⟩ := hfree
  rintro ⟨k₁, k₂, p₁, p₂, x, hx, hk₁, hk₂, hp₁, hp₂, ho₁, -, -, hid₁, hid₂, hrw⟩
  rw [(append_others hroom).1 k hkc.symm] at hk₂
  obtain ⟨y, hy, hyx⟩ := hinv.old_storage (append_descends hroom) hk₂ hp₂ hx hid₂
  -- the storage found for the root is the shared one, and was there before
  obtain ⟨hmem, z, hz, hfor, hzid⟩ := append_roots hk₁ hp₁
  have hzx : z = x := List.inj_on_of_nodup_map
    (appendContainer_numbered (o := o) hroom hinv.numbered).ids_nodup hz hx (hzid.symm.trans hid₁)
  rw [hzx, hyx.isForMount] at hfor
  rw [hyx] at hid₂ hrw
  rcases hfree p₁.1 hmem ho₁ y hy hfor with hro | hnot
  · exact hrw hro
  · exact hnot k k₂ hkc.symm hk₂ p₂ hp₂ hid₂

theorem append (hfree : RootsFree (.append c option o) s) (hinv : RootInv s) :
    RootInv (appendContainer o c option s).1 := by
  have hroom := hfree.1
  have hd := @append_descends c s o option hroom
  have hn := @appendContainer_numbered c s o option hroom hinv.numbered
  have hlookup := (@append_others c s o option hroom).1
  refine ⟨hn, ?_, ?_⟩
  · intro k rec hk p hp
    by_cases hkc : k = c
    · rw [hkc] at hk
      obtain ⟨-, x, hx, -, hid⟩ := append_roots hk hp
      rw [hid]
      exact Numbered.id_le hn _ (List.mem_map.mpr ⟨x, hx, rfl⟩)
    · rw [hlookup k hkc] at hk
      obtain ⟨n, hle, hid⟩ := hinv.roots k rec hk p hp
      exact ⟨n, hle.trans hd.1, hid⟩
  · intro c₁ c₂ hne hshare
    by_cases h₁ : c₁ = c
    · rw [h₁] at hne hshare
      exact append_apart hfree hinv hne hshare
    · by_cases h₂ : c₂ = c
      · rw [h₂] at hne hshare
        exact append_apart hfree hinv hne.symm hshare.symm
      · refine hinv.old_apart hd hne ?_ ?_ hshare
        · intro k hk
          rwa [hlookup c₁ h₁] at hk
        · intro k hk
          rwa [hlookup c₂ h₂] at hk

end Append

theorem remove {o : RemoveOutcomes} (hinv : RootInv s) : RootInv (removeContainer o c s).1 := by
  have hn := @removeContainer_numbered c s o hinv.numbered
  have hd := @deferenceContainerStorages_descends c s o.detach
  obtain ⟨s₁, ok, devices, h, heq⟩ := remove_cases o c s
  rw [h] at hd
  rw [heq] at hn ⊢
  have hlookup : ∀ k rec, (if ok && o.bundle then s.containers.erase c else s.containers).lookup k =
      some rec → s.containers.lookup k = some rec := by
    intro k rec hk
    split at hk
    · by_cases hkc : k = c
      · rw [hkc, Finmap.lookup_erase] at hk
        cases hk
      · rwa [Finmap.lookup_erase_ne hkc] at hk
    · exact hk
  refine ⟨hn, ?_, ?_⟩
  · intro k rec hk p hp
    exact hinv.roots k rec (hlookup k rec hk) p hp
  · intro c₁ c₂ hne
    apply hinv.old_apart _ hne (hlookup c₁) (hlookup c₂)
    exact ⟨Nat.le_refl s.idGenerator, hd.2⟩

theorem step {l : Label} (hfree : RootsFree l s) (h : next l s s') (hinv : RootInv s) :
    RootInv s' := by
  cases l with
  | append c option o =>
    cases h
    exact append hfree hinv
  | remove c o =>
    cases h
    exact remove hinv
  | create c alive pid =>
    cases h
    exact ⟨hinv.numbered, hinv.roots, hinv.apart⟩

end RootInv

/-- Where the roots of new containers are free: in every state that is reached no two containers
whose overlays write to different directories share a writable root. -/
theorem writable_roots_isolated {s : Sandbox}
    (h : Tla.Reachable Started (Tla.Guarded RootsFree next) s) : Isolated s := by
  have hinv : RootInv s := by
    apply h.guarded_invariant
    · intro s hs
      exact .of_started hs
    · intro l s s' hfree hstep hinv
      exact hinv.step hfree hstep
  intro c₁ c₂ hne _ _
  exact hinv.apart c₁ c₂ hne

def ownOverlay : ContainerOption where
  rootfs := [⟨"/", "overlay", "overlay-b", ["lowerdir=/l2", "upperdir=/u2"]⟩]
  spec := some { mounts := [], root := some "rootfs" }

/-- Two containers of two images, whose overlays have sources of their own. -/
theorem writable_roots_isolated_ownOverlay :
    Isolated
      (appendContainer {} "b" ownOverlay (appendOverlay "a" "/l1" "/u1" emptySandbox)).1 := by
  apply writable_roots_isolated
  have hother : ∀ m ∈ ownOverlay.rootfs,
      ∀ x ∈ (appendOverlay "a" "/l1" "/u1" emptySandbox).storages, x.isForMount m = false := by
    decide
  refine .step (.step (.init started_emptySandbox)
    ⟨.append "a" (overlayContainer "/l1" "/u1") {}, ⟨?_, ?_⟩, rfl⟩)
    ⟨.append "b" ownOverlay {}, ⟨?_, ?_⟩, rfl⟩
  · show (0 : ℕ) + 2 * 1 + 3 < 2 ^ 32
    decide
  · intro m _ _ x hx
    cases hx
  · show (1 : ℕ) + 2 * 1 + 3 < 2 ^ 32
    decide
  · intro m hm _ x hx hfor
    rw [hother m hm x hx] at hfor
    cases hfor

/-- Two containers of one image, whose overlays write to different directories: the second is given
the storage of the first. -/
theorem containers_of_image_share_root :
    ∃ s, Tla.Reachable Started (Tla.AnyStep next) s ∧ ¬ Isolated s := by
  refine ⟨_, appendOverlays_reachable "/l1", ?_⟩
  intro hisolated
  refine hisolated "a" "b" (by decide) (by decide) (by decide) ?_
  exact ⟨_, _, _, _, _, List.mem_cons_self, rfl, rfl, List.mem_cons_self, List.mem_cons_self,
    by decide, by decide, by decide, rfl, rfl, by decide⟩

end Kuasar.Storages

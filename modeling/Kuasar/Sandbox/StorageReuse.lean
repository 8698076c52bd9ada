import Kuasar.Sandbox.StorageReferences

/-!
# Sandbox.StorageReuse — when a mount finds the storage that was made for it

A storage records a source identity, and a mount can reuse it if the identity that
`source_identity_for_mount` computes for the mount is the same. The handlers write the identity by
how they attach the source: `block:`, `tmpfs:`, `bind:`, or the lower directories of an overlay.
The function goes by the type of the mount. `reattach_iff` says for which mounts the two agree.

Neither looks at the option `ro`, which the first mount of a source fixes for the storage.
`writable_mount_served` says when a later mount gets what it asks for.
-/

namespace Kuasar.Storages

open Sandbox FirstMatch Tla

/-! ## A storage that is new -/

section

variable {h : Host} {c : String} {m : Mount} {r : Bool} {s : Sandbox} {lowerDirs : Option String}
  {x : Storage}

theorem attachStorage_of_none (hnone : s.storages.find? (reusable m r) = none) :
    attachStorage h c m r s =
      newStorage h (storageId s.incrementId.idGenerator) c m r s.incrementId := by
  have hmatch : ∀ x ∈ s.storages, ¬reusable m r x = true := List.find?_eq_none.mp hnone
  have horphan : findOrphanForMount s.storages s.orphanContainerIds m r h.orphanChoice = none := by
    cases hfind : findOrphanForMount s.storages s.orphanContainerIds m r h.orphanChoice with
    | none => rfl
    | some orphan =>
      obtain ⟨-, x, hx, hreuse, -⟩ := findOrphanForMount_eq_some hfind
      exact absurd hreuse (hmatch x hx)
  have hany : ¬(s.storages.any fun x => storageMatchesMount x m r) = true := by
    intro hany
    obtain ⟨x, hx, hreuse⟩ := List.any_eq_true.mp hany
    exact hmatch x hx hreuse
  unfold attachStorage
  simp only [horphan]
  rw [if_neg hany]

/-- A storage that is new is recorded for the mount and held by the container, and none that was
there could be reused. -/
theorem attachStorage_new (hnew : (attachStorage h c m r s).1.storages = s.storages ++ [x]) :
    RecordedFor h m x ∧ x.refContainer = {c} ∧ s.storages.find? (reusable m r) = none ∧
      (attachStorage h c m r s).1.orphanContainerIds = s.orphanContainerIds := by
  rcases attach_storages (@attachStorage_cases h c m r s) with
    ⟨heq, -⟩ | ⟨f, -, heq⟩ | ⟨y, hy, heq, hnone⟩
  · rw [heq] at hnew
    simp at hnew
  · have hlen := congrArg List.length hnew
    rw [heq, length_updateFirst, List.length_append, List.length_singleton] at hlen
    omega
  · have hxy : y = x := by
      rw [heq] at hnew
      simpa using hnew
    have hfind : s.storages.find? (reusable m r) = none := by
      rw [List.find?_eq_none]
      intro z hz
      simpa using List.findIdx?_eq_none_iff.mp hnone z hz
    have hmade := @attachStorage_of_none h c m r s hfind
    refine ⟨?_, hxy ▸ hy.refContainer, hfind, ?_⟩
    · rw [hmade] at hnew
      rcases (@makes_newStorage h (storageId s.incrementId.idGenerator) c m r s.incrementId).2 with
        hsame | ⟨z, hz, hpush⟩
      · rw [hsame] at hnew
        simp [incrementId] at hnew
      · rw [hpush] at hnew
        have hzx : z = x := by simpa [incrementId] using hnew
        exact hzx ▸ hz
    · rw [hmade]
      exact makes_newStorage.1.frame.2.1

/-! ## Finding the storage again -/

theorem scheme_ne_overlay {scheme : String} (hscheme : scheme = "block" ∨ scheme = "tmpfs" ∨
    scheme = "bind") (source lower : String) : scheme ++ ":" ++ source ≠ "overlay:" ++ lower := by
  intro heq
  have hhead := congrArg (fun t : String => t.toList.head?) heq
  rcases hscheme with rfl | rfl | rfl <;> simp at hhead

/-- A storage with a scheme is found again by mounts whose type is the scheme. -/
theorem reusable_scheme_iff {scheme : String}
    (hscheme : scheme = "block" ∨ scheme = "tmpfs" ∨ scheme = "bind")
    (hx : Recorded (some (scheme ++ ":" ++ m.source)) lowerDirs m x) :
    reusable m r x = true ↔ m.type = scheme ∧ extractLowerDirs m.options = none := by
  unfold reusable storageMatchesMount Mount.sourceIdentity
  rw [hx.identity]
  cases hlower : extractLowerDirs m.options with
  | some lower => simp [scheme_ne_overlay hscheme]
  | none =>
    rw [if_pos hx.source]
    simp only [hx.type, decide_true, Bool.and_true, decide_eq_true_eq, and_true]
    rw [String.append_left_inj, String.append_left_inj, eq_comm]

/-- An overlay is found again by its lower directories, and without any by its source unless it is
a root file system. -/
theorem reusable_overlay_iff {x : Storage}
    (hx : Recorded ((extractLowerDirs m.options).map ("overlay:" ++ ·))
      (extractLowerDirs m.options) m x) :
    reusable m r x = true ↔ extractLowerDirs m.options ≠ none ∨ r = false := by
  unfold reusable storageMatchesMount Mount.sourceIdentity Storage.isForMount
  rw [hx.identity, hx.lowerDirs, hx.type, hx.hostSource]
  cases hlower : extractLowerDirs m.options with
  | some lower => simp
  | none => simp [hx.source]

/-- The identity that the mount's way records is the one that is computed for the mount. -/
def Recognised (h : Host) (r : Bool) (m : Mount) : Prop :=
  match route h m with
  | .block => m.type = "block" ∧ extractLowerDirs m.options = none
  | .tmpfs => m.type = "tmpfs" ∧ extractLowerDirs m.options = none
  | .bind => extractLowerDirs m.options = none
  | .overlay => extractLowerDirs m.options ≠ none ∨ r = false
  | .unneeded => True

theorem type_of_route_bind (hroute : route h m = .bind) : m.type = "bind" := by
  unfold route at hroute
  split at hroute
  · cases hroute
  split at hroute
  · cases hroute
  split at hroute
  · cases hroute
  split at hroute
  · rename_i hbind
    rw [Mount.isBind, Bool.and_eq_true] at hbind
    exact of_decide_eq_true hbind.1
  split at hroute <;> cases hroute

theorem reusable_iff {x : Storage} (hx : RecordedFor h m x) :
    reusable m r x = true ↔ Recognised h r m := by
  obtain ⟨hrec, hneeded⟩ := hx
  unfold Recognised
  cases hroute : route h m <;> rw [hroute] at hrec hneeded
  case block => exact reusable_scheme_iff (.inl rfl) hrec
  case tmpfs => exact reusable_scheme_iff (.inr (.inl rfl)) hrec
  case bind =>
    rw [reusable_scheme_iff (.inr (.inr rfl)) hrec]
    exact and_iff_right (type_of_route_bind hroute)
  case overlay => exact reusable_overlay_iff hrec
  case unneeded => exact absurd rfl hneeded

/-- The first storage that can be reused is the last, which only the container `c` holds: another
container gets a reference to it. -/
theorem attachStorage_last {h' : Host} {c' : String} {s : Sandbox} {xs : List Storage}
    (hstorages : s.storages = xs ++ [x]) (hnone : xs.find? (reusable m r) = none)
    (hreuse : reusable m r x = true) (href : x.refContainer = {c}) (hc : c ∉ s.orphanContainerIds) :
    attachStorage h' c' m r s = ({ s with storages := xs ++ [x.refer c'] }, none) := by
  have hothers : ∀ y ∈ xs, reusable m r y = false := by
    simpa using List.find?_eq_none.mp hnone
  have hfree : ∀ orphan, ¬Candidate m r s orphan := by
    rintro orphan ⟨horphan, y, hy, hyreuse, hyref⟩
    rw [hstorages] at hy
    rcases mem_concat.mp hy with hy | rfl
    · exact Bool.eq_false_iff.mp (hothers y hy) hyreuse
    · rw [href, Multiset.mem_singleton] at hyref
      rw [hyref] at horphan
      exact hc horphan
  have hcases := @attachStorage_cases h' c' m r s
  rcases hres : attachStorage h' c' m r s with ⟨s', e⟩
  rw [hres] at hcases
  cases hcases with
  | adopted orphan g hcand | refused orphan g hcand => exact absurd hcand (hfree orphan)
  | reused y hy _ heq =>
    have heq : s' = _ := heq
    rw [heq, hstorages, updateFirst_append hothers hreuse]
  | made e hempty =>
    rw [hstorages, List.find?_append, hnone, Option.none_or, List.find?_singleton,
      if_pos hreuse] at hempty
    cases hempty

/-- A storage that is not found again is not referred to, and a second one may be attached. -/
theorem attachStorage_unrecognised {h' : Host} {c' : String} {s : Sandbox} {xs : List Storage}
    {x : Storage} (hstorages : s.storages = xs ++ [x]) (hnone : xs.find? (reusable m r) = none)
    (hreuse : ¬reusable m r x = true) :
    Appends (RecordedFor h' m) s (attachStorage h' c' m r s).1 := by
  have hfind : s.storages.find? (reusable m r) = none := by
    rw [hstorages, List.find?_append, hnone, Option.none_or, List.find?_singleton, if_neg hreuse]
  rw [attachStorage_of_none hfind]
  exact makes_newStorage.2

theorem refer_ne : x.refer c ≠ x := by
  intro heq
  have hcard := congrArg Storage.refCount heq
  simp [Storage.refer, Storage.refCount] at hcard

/-- A storage that was attached for a mount is found again for it exactly if the mount is
recognised. Then attaching the mount a second time adds no storage, and a reference is all that it
adds (unless the first container is an orphan, which the second one takes over). Otherwise it does
not come to a reference. -/
theorem reattach_iff (h : Host) (c : String) (m : Mount) (r : Bool) (s : Sandbox) (x : Storage)
    (hnew : (attachStorage h c m r s).1.storages = s.storages ++ [x]) :
    (reusable m r x = true ↔ Recognised h r m) ∧
      (Recognised h r m → ∀ h' c',
        (attachStorage h' c' m r (attachStorage h c m r s).1).1.storages.length =
          (attachStorage h c m r s).1.storages.length) ∧
      (c ∉ s.orphanContainerIds → ∀ h' c',
        (attachStorage h' c' m r (attachStorage h c m r s).1 = ({ (attachStorage h c m r s).1 with
          storages := s.storages ++ [x.refer c'] }, none) ↔ Recognised h r m)) := by
  obtain ⟨hrec, href, hnone, horphans⟩ := attachStorage_new hnew
  have hiff := @reusable_iff h m r x hrec
  refine ⟨hiff, ?_, ?_⟩
  · intro hknown h' c'
    rcases attach_storages (@attachStorage_cases h' c' m r (attachStorage h c m r s).1) with
      ⟨heq, -⟩ | ⟨f, -, heq⟩ | ⟨y, -, -, hidx⟩
    · rw [heq]
    · rw [heq, length_updateFirst]
    · rw [List.findIdx?_eq_none_iff, hnew] at hidx
      have hnot := hidx x (List.mem_append_right _ List.mem_cons_self)
      rw [hiff.mpr hknown] at hnot
      cases hnot
  · intro hc h' c'
    rw [← horphans] at hc
    constructor
    · intro hsecond
      by_contra hunknown
      have happ := @attachStorage_unrecognised m r h' c' _ _ _ hnew hnone fun hreuse =>
        hunknown (hiff.mp hreuse)
      rw [hsecond, Appends, hnew] at happ
      rcases happ with hsame | ⟨y, -, hgrown⟩
      · have hx : x.refer c' = x := by simpa using hsame
        exact refer_ne hx
      · have hlen := congrArg List.length hgrown
        simp at hlen
    · intro hknown
      exact attachStorage_last hnew hnone (hiff.mpr hknown) href hc

end

/-- A host directory, bound into a container. -/
def dataMount (options : List String) : Mount := ⟨"/data", "bind", "/srv/data", options⟩

/-- A host directory is bound into two containers. -/
theorem reattach_iff_dataMount :
    attachStorage {} "b" (dataMount []) false (attachStorage {} "a" (dataMount []) false
        emptySandbox).1 =
      ({ (attachStorage {} "a" (dataMount []) false emptySandbox).1 with
        storages := emptySandbox.storages ++
          [(hostStorage "storage1" "a" (dataMount []) none (some "bind:/srv/data")).refer "b"] },
        none) :=
  ((reattach_iff {} "a" (dataMount []) false emptySandbox
    (hostStorage "storage1" "a" (dataMount []) none (some "bind:/srv/data")) (by decide)).2.2
      (by decide) {} "b").mpr (show extractLowerDirs (dataMount []).options = none by decide)

/-- A block device of the host, mounted into a container as the orchestrator does it. -/
def deviceMount : Mount := ⟨"/vol", "bind", "/dev/vdb", []⟩

/-- A block device of the host is mounted into two containers: its storage is recorded as
`block:/dev/vdb` and looked for as `bind:/dev/vdb`, and the device is attached to the VM twice. -/
theorem block_device_attached_twice :
    ((attachStorage { blockDevice := true } "a" deviceMount false emptySandbox).1.storages.map
        fun x => (x.hostSource, reusable deviceMount false x)) = [("/dev/vdb", false)] ∧
      ((attachStorage { blockDevice := true } "b" deviceMount false (attachStorage
        { blockDevice := true } "a" deviceMount false emptySandbox).1).1.storages.map fun x =>
          (x.id, x.deviceId, x.hostSource)) =
        [("storage1", some "blk2", "/dev/vdb"), ("storage3", some "blk4", "/dev/vdb")] := by
  decide

/-! ## Read-only storages -/

/-- A sandbox with the mounts that its storages were made for, by the id of the storage. -/
structure History where
  sandbox : Sandbox
  origins : List (String × Mount)

/-- What happens to the storages of a sandbox: a mount of a container is attached, or references
of a container are released. -/
inductive Use where
  | attach (h : Host) (c : String) (m : Mount) (r : Bool)
  | defer (o : DetachOutcomes) (c : String) (m : Mount)
  | deferAll (o : DetachOutcomes) (c : String)

/-- One of them. A mount is kept when no storage can be reused for it. -/
def History.step (l : Use) (w : History) : History :=
  match l with
  | .attach h c m r =>
    { sandbox := (attachStorage h c m r w.sandbox).1
      origins := if (w.sandbox.storages.find? (reusable m r)).isSome then w.origins
        else w.origins ++ [(storageId w.sandbox.incrementId.idGenerator, m)] }
  | .defer o c m => { w with sandbox := (deferenceStorage o c m w.sandbox).1 }
  | .deferAll o c => { w with sandbox := (deferenceContainerStorages o c w.sandbox).1 }

/-- A sandbox without storages. -/
def Unused (w : History) : Prop := w.sandbox.storages = [] ∧ w.origins = []

/-- A storage of the one mount can serve the other: they have the same type, and the same source
or the identity of what is mounted. -/
def Mount.SameSource (m₀ m : Mount) : Prop :=
  m₀.type = m.type ∧ (m₀.source = m.source ∨ ∃ i ∈ m₀.madeIdentities, m.sourceIdentity = some i)

/-- No storage of the sandbox was made for a read-only mount of the same source, unless the mount
is read-only itself. -/
def WritesFirst (m : Mount) (w : History) : Prop :=
  ∀ x ∈ w.sandbox.storages, ∀ m₀, (x.id, m₀) ∈ w.origins → m₀.SameSource m → m₀.ReadOnly →
    m.ReadOnly

/-- A storage was made for a mount that is kept, and is read-only if the mount is. -/
structure MadeFor (origins : List (String × Mount)) (m₀ : Mount) (x : Storage) : Prop where
  kept : (x.id, m₀) ∈ origins
  isForMount : x.isForMount m₀ = true
  identity : (∃ i ∈ m₀.madeIdentities, x.sourceIdentity = some i) ∨
    (x.sourceIdentity = none ∧ x.lowerDirs = none)
  readOnly : x.ReadOnly ↔ m₀.ReadOnly

/-- Every storage was. -/
def Traced (w : History) : Prop := ∀ x ∈ w.sandbox.storages, ∃ m₀, MadeFor w.origins m₀ x

section

variable {m m₀ : Mount} {r : Bool} {x y : Storage} {w : History}
  {origins origins' : List (String × Mount)}

/-- A storage serves mounts of the source that it was made for. -/
theorem MadeFor.sameSource (hx : MadeFor origins m₀ x) (hreuse : reusable m r x = true) :
    m₀.SameSource m := by
  obtain ⟨hsource, htype⟩ := isForMount_iff.mp hx.isForMount
  have hcases := reusable_cases hx.identity hreuse
  rw [hsource, htype] at hcases
  exact hcases

theorem MadeFor.of_same (h : MadeFor origins m₀ x) (hsame : x.Same y)
    (hsub : origins ⊆ origins') : MadeFor origins' m₀ y := by
  rw [hsame]
  exact ⟨hsub h.kept, h.isForMount, h.identity, h.readOnly⟩

/-- The storages after a step are those before it, with other references. -/
theorem Traced.of_same {w' : History} (h : Traced w) (hsub : w.origins ⊆ w'.origins)
    (hsame : ∀ y ∈ w'.sandbox.storages, ∃ x ∈ w.sandbox.storages, x.Same y) : Traced w' := by
  intro y hy
  obtain ⟨x, hx, hxy⟩ := hsame y hy
  obtain ⟨m₀, hmade⟩ := h x hx
  exact ⟨m₀, hmade.of_same hxy hsub⟩

theorem Traced.attach (hw : Traced w) (h : Host) (c : String) (m : Mount) (r : Bool) :
    Traced (w.step (.attach h c m r)) := by
  have hsub : w.origins ⊆ (w.step (.attach h c m r)).origins := by
    unfold History.step
    dsimp only
    split
    · exact List.Subset.refl _
    · exact List.subset_append_left _ _
  rcases attach_storages (@attachStorage_cases h c m r w.sandbox) with
    ⟨heq, -⟩ | ⟨f, hf, heq⟩ | ⟨x, hnew, heq, hidx⟩
  · refine hw.of_same hsub ?_
    intro y hy
    exact ⟨y, heq ▸ hy, .refl y⟩
  · refine hw.of_same hsub ?_
    intro y hy
    have hy : y ∈ updateFirst (reusable m r) f w.sandbox.storages := heq ▸ hy
    rcases mem_updateFirst hy with hy | ⟨x, hx, rfl⟩
    · exact ⟨y, hy, .refl y⟩
    · exact ⟨x, List.mem_of_find?_eq_some hx, hf.same x⟩
  · intro y hy
    have hy : y ∈ w.sandbox.storages ++ [x] := heq ▸ hy
    rcases mem_concat.mp hy with hy | rfl
    · obtain ⟨m₀, hmade⟩ := hw y hy
      exact ⟨m₀, hmade.of_same (.refl y) hsub⟩
    · -- the mount is kept with the id of the new storage
      obtain ⟨hrec, -, hnone, -⟩ := attachStorage_new heq
      refine ⟨m, ?_, hnew.isForMount, hnew.identity, hrec.readOnly⟩
      unfold History.step
      dsimp only
      rw [hnone, hnew.id_eq]
      exact List.mem_append_right _ List.mem_cons_self

theorem Traced.step {l : Use} (h : Traced w) : Traced (w.step l) := by
  cases l with
  | attach host c m r => exact h.attach host c m r
  | defer o c m =>
    refine h.of_same (List.Subset.refl _) ?_
    intro y hy
    rcases mem_updateFirst (gcStorages_sublist.subset hy) with hy | ⟨x, hx, rfl⟩
    · exact ⟨y, hy, .refl y⟩
    · exact ⟨x, List.mem_of_find?_eq_some hx, x.same_defer c⟩
  | deferAll o c =>
    refine h.of_same (List.Subset.refl _) ?_
    intro y hy
    obtain ⟨x, hx, rfl⟩ := List.mem_map.mp (gcStorages_sublist.subset hy)
    exact ⟨x, hx, x.same_defer c⟩

/-- After every sequence of mounts and releases: if no storage was made for a read-only mount of the
same source, a mount that does not ask for read-only is served by a storage that is not read-only,
whether one is reused or made. -/
theorem writable_mount_served (w : History)
    (h : Reachable Unused (AnyStep fun l w w' => w' = History.step l w) w)
    (m : Mount) (r : Bool) (hfirst : WritesFirst m w) (hwrites : ¬m.ReadOnly) :
    (∀ x, w.sandbox.storages.find? (reusable m r) = some x → ¬x.ReadOnly) ∧
      ∀ h c x, (attachStorage h c m r w.sandbox).1.storages = w.sandbox.storages ++ [x] →
        ¬x.ReadOnly := by
  have htraced : Traced w := by
    apply h.invariant
    · rintro w ⟨hempty, -⟩ x hx
      rw [hempty] at hx
      cases hx
    · rintro w w' ⟨l, rfl⟩ hw
      exact hw.step
  constructor
  · intro x hfind hro
    have hmem := List.mem_of_find?_eq_some hfind
    have hreuse := List.find?_some hfind
    obtain ⟨m₀, hmade⟩ := htraced x hmem
    exact hwrites (hfirst x hmem m₀ hmade.kept (hmade.sameSource hreuse) (hmade.readOnly.mp hro))
  · intro h c x hnew hro
    exact hwrites ((attachStorage_new hnew).1.readOnly.mp hro)

end

/-- A host directory is bound into a container that writes, and then into one that does not. -/
def writerFirst : History :=
  ((⟨emptySandbox, []⟩ : History).step (.attach {} "a" (dataMount []) false)).step
    (.attach {} "b" (dataMount ["ro"]) false)

theorem writable_mount_served_writerFirst :
    ∃ x, writerFirst.sandbox.storages.find? (reusable (dataMount []) false) = some x ∧
      ¬x.ReadOnly := by
  have hr : Reachable Unused (AnyStep fun l w w' => w' = History.step l w) writerFirst :=
    ((Reachable.init ⟨rfl, rfl⟩).anyStep (.attach {} "a" (dataMount []) false) rfl).anyStep
      (.attach {} "b" (dataMount ["ro"]) false) rfl
  have hfirst : WritesFirst (dataMount []) writerFirst := by
    intro x _ m₀ hkept _ hro
    have horigins : writerFirst.origins = [("storage1", dataMount [])] := by decide
    rw [horigins, List.mem_singleton] at hkept
    obtain ⟨-, rfl⟩ := Prod.mk.inj hkept
    exact hro
  have hfind : (writerFirst.sandbox.storages.find? (reusable (dataMount []) false)).isSome = true :=
    by decide
  obtain ⟨x, hx⟩ := Option.isSome_iff_exists.mp hfind
  have hserved := writable_mount_served writerFirst hr (dataMount []) false hfirst (by decide)
  exact ⟨x, hx, hserved.1 x hx⟩

/-- A host directory is bound read-only into a container and then into one that writes: the second
is served by the read-only storage. -/
theorem writable_mount_on_read_only_storage :
    Reachable Unused (AnyStep fun l w w' => w' = History.step l w)
        ((⟨emptySandbox, []⟩ : History).step (.attach {} "a" (dataMount ["ro"]) false)) ∧
      ¬(dataMount []).ReadOnly ∧
      ((((⟨emptySandbox, []⟩ : History).step (.attach {} "a" (dataMount ["ro"]) false)).step
        (.attach {} "b" (dataMount []) false)).sandbox.storages.map fun x =>
          (x.hostSource, x.options, x.refContainer)) = [("/srv/data", ["ro"], {"a", "b"})] :=
  ⟨(Reachable.init ⟨rfl, rfl⟩).anyStep _ rfl, by decide, by decide⟩

end Kuasar.Storages

import Kuasar.Tla.Core
import Kuasar.Sandbox.Storages

/-!
# Guest.GuestStorages — the storages that the guest mounts for its containers

The creation of a container in the guest mounts the storages that the host lists for it, or takes a
reference to one that is mounted already; then it makes the container. The deletion takes the
references of the container back and unmounts what nobody refers to.

A creation that fails gives nothing back, and a storage that is mounted keeps the references that
the host sent with it, whoever they are of. So storages and references balance only if creations
fail before they touch a storage, new storages are referred to by their container, and mount points
tell storages apart (`Sound`).
-/

namespace Kuasar.GuestStorages

open Tla FirstMatch

structure MountRecord where
  mountPoint : String
  source : String
  fstype : String
deriving DecidableEq, Repr

/-- What tells storages apart. -/
structure Key where
  hostSource : String
  type : String
  mountPoint : String
deriving DecidableEq, Repr

def key (x : Storages.Storage) : Key := ⟨x.hostSource, x.type, x.mountPoint⟩

def record (x : Storages.Storage) : MountRecord := ⟨x.mountPoint, x.source, x.fstype⟩

/-- `ref_count`, a `u32`. -/
def refCount (x : Storages.Storage) : ℕ := x.refCount % 2 ^ 32

/-- A container of the guest and the storages that it was created with. -/
structure Container where
  id : String
  keys : List Key
deriving DecidableEq

/-- The storages, the mount table, the newest mount last, and the containers there are. -/
structure Guest where
  storages : List Storages.Storage
  mounts : List MountRecord
  containers : List Container

/-! ## Creation -/

/-- How the steps for one new storage go: the device that its address is resolved to, its mount
point, the mount, and the look at the mount table afterwards. -/
structure MountOutcome where
  device : Option String
  mountPoint : Bool
  mount : Bool
  verify : Bool

/-- `mount_storage`. -/
def mountStorage (g : Guest) (o : MountOutcome) (x : Storages.Storage) : Guest × Bool :=
  if !o.mountPoint || !o.mount then (g, false)
  else ({ g with mounts := g.mounts ++ [record x] }, o.verify)

/-- The storage with the source that is mounted; `none` is an error, or a driver for which there is
no code. -/
def resolve (o : MountOutcome) (x : Storages.Storage) : Option Storages.Storage :=
  if x.driver = "scsi" ∨ x.driver = "blk" then
    o.device.map fun path => { x with source := path }
  else if x.driver = "ephemeral" then some x
  else none

/-- `add_storage`. -/
def addStorage (c : String) (g : Guest) (new : Storages.Storage × MountOutcome) : Guest × Bool :=
  if g.storages.any (key · = key new.1) then
    ({ g with storages := updateFirst (key · = key new.1) (.refer c) g.storages }, true)
  else
    match resolve new.2 new.1 with
    | none => (g, false)
    | some x =>
      match mountStorage g new.2 x with
      | (g, false) => (g, false)
      | (g, true) => ({ g with storages := g.storages ++ [x] }, true)

/-- `add_storages`: up to the first that fails. -/
def addStorages (c : String) (g : Guest) : List (Storages.Storage × MountOutcome) → Guest × Bool
  | [] => (g, true)
  | new :: news =>
    match addStorage c g new with
    | (g, false) => (g, false)
    | (g, true) => addStorages c g news

/-- A request to create a container: whether its spec and storages can be read, the storages, and
whether the steps after them succeed. -/
structure Creation where
  id : String
  reads : Bool
  storages : List (Storages.Storage × MountOutcome)
  rest : Bool

/-- `KuasarFactory::create`, and the record of the container. -/
def create (a : Creation) (g : Guest) : Guest × Bool :=
  if !a.reads then (g, false)
  else
    match addStorages a.id g a.storages with
    | (g, false) => (g, false)
    | (g, true) =>
      if !a.rest then (g, false)
      else
        ({ g with containers := g.containers.filter (·.id ≠ a.id) ++
            [⟨a.id, a.storages.map (key ·.1)⟩] }, true)

/-! ## Deletion -/

/-- `unmount`: the newest mount at the mount point goes. -/
def unmount (mountPoint : String) : List MountRecord → List MountRecord
  | [] => []
  | r :: rs =>
    if r.mountPoint = mountPoint ∧ mountPoint ∉ rs.map (·.mountPoint) then rs
    else r :: unmount mountPoint rs

/-- A request to delete a container: whether the runtime deletes it, and of which storages the
unmount succeeds. -/
structure Deletion where
  id : String
  runtime : Bool
  unmounts : Storages.Storage → Bool

/-- `gc_storages`: an unmount that fails is logged. -/
def gcStorages (d : Deletion) (g : Guest) : Guest :=
  let removed := g.storages.filter (refCount · = 0)
  { g with
    storages := g.storages.filter (refCount · ≠ 0)
    mounts := removed.foldl (fun ms x => if d.unmounts x then unmount x.mountPoint ms else ms)
      g.mounts }

/-- `defer_storages`. -/
def deferStorages (d : Deletion) (g : Guest) : Guest :=
  gcStorages d { g with storages := g.storages.map (.defer d.id) }

/-- `delete` of a container, with the `cleanup` of its factory. -/
def delete (d : Deletion) (g : Guest) : Guest :=
  if d.id ∉ g.containers.map (·.id) ∨ d.runtime = false then g
  else { deferStorages d g with containers := g.containers.filter (·.id ≠ d.id) }

/-! ## Runs -/

inductive Label where
  | create (a : Creation)
  | delete (d : Deletion)

def next (l : Label) : Action Guest := fun g g' =>
  match l with
  | .create a => g' = (create a g).1
  | .delete d => g' = delete d g

def Init : StatePred Guest := fun g => g = ⟨[], [], []⟩

/-- What a live container was created with is mounted, and nothing is when there is none. -/
structure Balanced (g : Guest) : Prop where
  mounted : ∀ x ∈ g.containers, ∀ k ∈ x.keys, ∃ s ∈ g.storages, key s = k ∧ record s ∈ g.mounts
  released : g.containers = [] → g.mounts = []

/-- The creation touches no storage: it does not come to one, or it fails on the first, which is
not there, before the mount. -/
def Untouching (a : Creation) (g : Guest) : Prop :=
  a.reads = false ∨
    match a.storages with
    | [] => True
    | (x, o) :: _ => (∀ s ∈ g.storages, key s ≠ key x) ∧
        (resolve o x = none ∨ o.mountPoint = false ∨ o.mount = false)

/-- A creation that fails touches no storage; each storage that it lists comes with references of
its container and of live ones only, fewer than a `u32` counts; and mount points tell the storages
apart. Unmounts succeed. -/
def Sound (l : Label) (g : Guest) : Prop :=
  match l with
  | .create a =>
    ((create a g).2 = false → Untouching a g) ∧
    (∀ new ∈ a.storages, a.id ∈ new.1.refContainer ∧
      (∀ c ∈ new.1.refContainer, c = a.id ∨ c ∈ g.containers.map (·.id)) ∧
      new.1.refCount + a.storages.length < 2 ^ 32) ∧
    (∀ s ∈ g.storages, s.refCount + a.storages.length < 2 ^ 32) ∧
    ∀ k ∈ g.storages.map key ++ a.storages.map (key ·.1),
      ∀ k' ∈ g.storages.map key ++ a.storages.map (key ·.1), k.mountPoint = k'.mountPoint → k = k'
  | .delete d => ∀ s, d.unmounts s = true

/-! ## Adding storages -/

/-- The mount table is that of the storages, which have mount points of their own and somebody who
refers to them. -/
structure Tidy (g : Guest) : Prop where
  mounts : g.mounts = g.storages.map record
  points : (g.storages.map (·.mountPoint)).Nodup
  held : ∀ s ∈ g.storages, s.refContainer ≠ 0

/-- While the storages of container `c` are added, `n` of them to come: references are of `c` or of
live containers, and all keys are among `ks`. -/
structure Adding (c : String) (n : ℕ) (ks : List Key) (g : Guest) : Prop extends Tidy g where
  owners : ∀ s ∈ g.storages, ∀ x ∈ s.refContainer, x = c ∨ x ∈ g.containers.map (·.id)
  bounded : ∀ s ∈ g.storages, s.refCount + n < 2 ^ 32
  keys : ∀ s ∈ g.storages, key s ∈ ks

/-- Storages stay, with the references that they had. -/
structure Grows (g g' : Guest) : Prop where
  containers : g'.containers = g.containers
  storages : ∀ s ∈ g.storages, ∃ s' ∈ g'.storages, key s' = key s ∧
    ∀ x ∈ s.refContainer, x ∈ s'.refContainer

theorem Grows.refl (g : Guest) : Grows g g := ⟨rfl, fun s hs => ⟨s, hs, rfl, fun _ h => h⟩⟩

theorem Grows.trans {g g' g'' : Guest} (h : Grows g g') (h' : Grows g' g'') : Grows g g'' := by
  refine ⟨h'.containers.trans h.containers, ?_⟩
  intro s hs
  obtain ⟨s', hs', hkey', hrefs'⟩ := h.storages s hs
  obtain ⟨s'', hs'', hkey'', hrefs''⟩ := h'.storages s' hs'
  exact ⟨s'', hs'', hkey''.trans hkey', fun x hx => hrefs'' x (hrefs' x hx)⟩

def Refers (g : Guest) (c : String) (k : Key) : Prop :=
  ∃ s ∈ g.storages, key s = k ∧ c ∈ s.refContainer

theorem Refers.grows {g g' : Guest} {c : String} {k : Key} (h : Refers g c k)
    (hg : Grows g g') : Refers g' c k := by
  obtain ⟨s, hs, rfl, hc⟩ := h
  obtain ⟨s', hs', hkey, hrefs⟩ := hg.storages s hs
  exact ⟨s', hs', hkey, hrefs c hc⟩

variable {c : String} {g g' : Guest} {new : Storages.Storage × MountOutcome} {ks : List Key} {n : ℕ}

variable {x : Storages.Storage} {a : Creation} {d : Deletion}

theorem resolve_spec {o : MountOutcome} {y : Storages.Storage} (h : resolve o x = some y) :
    key y = key x ∧ y.refContainer = x.refContainer := by
  unfold resolve at h
  split at h
  · obtain ⟨path, -, rfl⟩ := Option.map_eq_some_iff.mp h
    exact ⟨rfl, rfl⟩
  split at h
  · cases h
    exact ⟨rfl, rfl⟩
  · cases h

/-- A storage that is there gets a reference; else a new one is mounted and recorded. -/
theorem addStorage_cases (h : addStorage c g new = (g', true)) :
    (∃ x, g.storages.find? (key · = key new.1) = some x ∧
      g' = { g with storages := updateFirst (key · = key new.1) (.refer c) g.storages }) ∨
    ((∀ s ∈ g.storages, key s ≠ key new.1) ∧
      ∃ x, key x = key new.1 ∧ x.refContainer = new.1.refContainer ∧
        g' = { g with storages := g.storages ++ [x], mounts := g.mounts ++ [record x] }) := by
  unfold addStorage at h
  split at h
  · rename_i hany
    cases h
    obtain ⟨x, hx⟩ := Option.isSome_iff_exists.mp (List.find?_isSome.mpr (List.any_eq_true.mp hany))
    exact .inl ⟨x, hx, rfl⟩
  · rename_i hnone
    refine .inr ⟨by simpa using hnone, ?_⟩
    split at h
    · cases h
    · rename_i x hx
      obtain ⟨hkey, hrefs⟩ := resolve_spec hx
      refine ⟨x, hkey, hrefs, ?_⟩
      unfold mountStorage at h
      by_cases hfail : (!new.2.mountPoint || !new.2.mount) = true
      · rw [if_pos hfail] at h
        cases h
      · rw [if_neg hfail] at h
        cases hverify : new.2.verify <;> rw [hverify] at h <;> cases h
        rfl

/-- What a new storage has to come with. -/
def FitFor (c : String) (n : ℕ) (g : Guest) (x : Storages.Storage) : Prop :=
  c ∈ x.refContainer ∧ (∀ y ∈ x.refContainer, y = c ∨ y ∈ g.containers.map (·.id)) ∧
    x.refCount + n < 2 ^ 32

/-- An addition leaves the storages that were there and one that fits the container. -/
theorem Adding.of_cases (hadd : Adding c (n + 1) ks g)
    (hcontainers : g'.containers = g.containers) (hmounts : g'.mounts = g'.storages.map record)
    (hpoints : (g'.storages.map (·.mountPoint)).Nodup)
    (hcases : ∀ s ∈ g'.storages, s ∈ g.storages ∨ s = x) (hfit : FitFor c n g x)
    (hkey : key x ∈ ks) : Adding c n ks g' := by
  obtain ⟨hheld, howners, hbounded⟩ := hfit
  refine ⟨⟨hmounts, hpoints, ?_⟩, ?_, ?_, ?_⟩
  · intro s hs
    rcases hcases s hs with hs | rfl
    · exact hadd.held s hs
    · intro h0
      rw [h0] at hheld
      exact Multiset.notMem_zero c hheld
  · intro s hs
    rw [hcontainers]
    rcases hcases s hs with hs | rfl
    · exact hadd.owners s hs
    · exact howners
  · intro s hs
    rcases hcases s hs with hs | rfl
    · have := hadd.bounded s hs
      omega
    · exact hbounded
  · intro s hs
    rcases hcases s hs with hs | rfl
    · exact hadd.keys s hs
    · exact hkey

/-- A storage fits the container that takes a reference to it. -/
theorem Adding.fit_refer (hadd : Adding c (n + 1) ks g) (hx : x ∈ g.storages) :
    FitFor c n g (x.refer c) := by
  refine ⟨Multiset.mem_cons_self c _, ?_, ?_⟩
  · intro y hy
    rcases Multiset.mem_cons.mp hy with rfl | hy
    · exact .inl rfl
    · exact hadd.owners x hx y hy
  · have := hadd.bounded x hx
    simp only [Storages.Storage.refCount, Storages.Storage.refer, Multiset.card_cons] at this ⊢
    omega

theorem refer_adding (hx : g.storages.find? (key · = key new.1) = some x)
    (hadd : Adding c (n + 1) ks g)
    (hg' : g' = { g with storages := updateFirst (key · = key new.1) (.refer c) g.storages }) :
    Adding c n ks g' ∧ Grows g g' ∧ Refers g' c (key new.1) := by
  subst hg'
  have hmem : x ∈ g.storages := List.mem_of_find?_eq_some hx
  have hkey : key x = key new.1 := by simpa using List.find?_some hx
  refine ⟨hadd.of_cases rfl ?_ ?_ ?_ (hadd.fit_refer hmem) (hadd.keys x hmem), ⟨rfl, ?_⟩, ?_⟩
  · rw [map_updateFirst]
    · exact hadd.mounts
    · exact fun _ => rfl
  · rw [map_updateFirst]
    · exact hadd.points
    · exact fun _ => rfl
  · intro s hs
    rcases mem_updateFirst hs with hs | ⟨y, hy, rfl⟩
    · exact .inl hs
    · rw [hx] at hy
      cases hy
      exact .inr rfl
  · intro s hs
    rcases mem_updateFirst_of_mem hs with hs' | ⟨-, hs'⟩
    · exact ⟨s, hs', rfl, fun _ h => h⟩
    · exact ⟨_, hs', rfl, fun _ h => Multiset.mem_cons_of_mem h⟩
  · obtain ⟨pre, post, -, -, hup⟩ := updateFirst_split (f := Storages.Storage.refer c) hx
    refine ⟨x.refer c, ?_, hkey, Multiset.mem_cons_self c _⟩
    rw [hup]
    exact List.mem_append_right _ List.mem_cons_self

section

variable (hpoints : ∀ k ∈ ks, ∀ k' ∈ ks, k.mountPoint = k'.mountPoint → k = k')

include hpoints

theorem mount_adding (hnone : ∀ s ∈ g.storages, key s ≠ key new.1) (hkey : key x = key new.1)
    (hmemk : key new.1 ∈ ks) (hfit : FitFor c n g x) (hadd : Adding c (n + 1) ks g)
    (hg' : g' = { g with storages := g.storages ++ [x], mounts := g.mounts ++ [record x] }) :
    Adding c n ks g' ∧ Grows g g' ∧ Refers g' c (key new.1) := by
  subst hg'
  have hcases : ∀ s ∈ g.storages ++ [x], s ∈ g.storages ∨ s = x := by
    intro s hs
    simpa using hs
  refine ⟨hadd.of_cases rfl ?_ ?_ hcases hfit (hkey ▸ hmemk), ⟨rfl, ?_⟩, ?_⟩
  · simp only [List.map_append, List.map_cons, List.map_nil, hadd.mounts]
  · -- a storage at the same mount point would have the same key
    apply nodup_map_concat hadd.points
    intro s hs hpoint
    refine hnone s hs (hpoints _ (hadd.keys s hs) _ hmemk ?_)
    rw [← hkey]
    exact hpoint
  · intro s hs
    exact ⟨s, List.mem_append_left _ hs, rfl, fun _ h => h⟩
  · exact ⟨x, List.mem_append_right _ (List.mem_singleton_self x), hkey, hfit.1⟩

theorem addStorage_adding (h : addStorage c g new = (g', true)) (hadd : Adding c (n + 1) ks g)
    (hfit : FitFor c n g new.1) (hmemk : key new.1 ∈ ks) :
    Adding c n ks g' ∧ Grows g g' ∧ Refers g' c (key new.1) := by
  rcases addStorage_cases h with ⟨x, hx, hg'⟩ | ⟨hnone, x, hkey, hrefs, hg'⟩
  · exact refer_adding hx hadd hg'
  · refine mount_adding hpoints hnone hkey hmemk ?_ hadd hg'
    rw [FitFor, Storages.Storage.refCount, hrefs]
    exact hfit

theorem addStorages_adding {news : List (Storages.Storage × MountOutcome)}
    (h : addStorages c g news = (g', true)) (hadd : Adding c news.length ks g)
    (hfit : ∀ new ∈ news, FitFor c news.length g new.1) (hmemk : ∀ new ∈ news, key new.1 ∈ ks) :
    Adding c 0 ks g' ∧ Grows g g' ∧ ∀ new ∈ news, Refers g' c (key new.1) := by
  induction news generalizing g with
  | nil =>
    cases h
    exact ⟨hadd, .refl _, by simp⟩
  | cons new news ih =>
    rw [addStorages] at h
    split at h
    · cases h
    · rename_i g₁ h₁
      have hlen : FitFor c news.length g new.1 := by
        obtain ⟨hheld, howners, hbounded⟩ := hfit new List.mem_cons_self
        rw [List.length_cons] at hbounded
        exact ⟨hheld, howners, by omega⟩
      obtain ⟨hadd₁, hgrow₁, href₁⟩ :=
        addStorage_adding hpoints h₁ hadd hlen (hmemk new List.mem_cons_self)
      have hfit₁ : ∀ x ∈ news, FitFor c news.length g₁ x.1 := by
        intro x hx
        obtain ⟨hheld, howners, hbounded⟩ := hfit x (List.mem_cons_of_mem new hx)
        rw [List.length_cons] at hbounded
        rw [← hgrow₁.containers] at howners
        exact ⟨hheld, howners, by omega⟩
      obtain ⟨hadd₂, hgrow₂, hrefs₂⟩ :=
        ih h hadd₁ hfit₁ fun x hx => hmemk x (List.mem_cons_of_mem new hx)
      refine ⟨hadd₂, hgrow₁.trans hgrow₂, ?_⟩
      intro x hx
      rcases List.mem_cons.mp hx with rfl | hx
      · exact href₁.grows hgrow₂
      · exact hrefs₂ x hx

end

theorem addStorage_untouched {o : MountOutcome} (hnone : ∀ s ∈ g.storages, key s ≠ key x)
    (hfail : resolve o x = none ∨ o.mountPoint = false ∨ o.mount = false) :
    addStorage c g (x, o) = (g, false) := by
  have hany : ¬ g.storages.any (key · = key x) = true := by simpa using hnone
  unfold addStorage
  rw [if_neg hany]
  split
  · rfl
  · rename_i y hy
    have hmount : (!o.mountPoint || !o.mount) = true := by
      rcases hfail with hr | hp | hm
      · rw [hr] at hy
        cases hy
      · simp [hp]
      · simp [hm]
    rw [mountStorage, if_pos hmount]

/-- A creation that touches no storage and fails leaves everything as it was. -/
theorem create_untouching (hun : Untouching a g) (h : (create a g).2 = false) :
    (create a g).1 = g := by
  unfold create at h ⊢
  cases hreads : a.reads with
  | false => rfl
  | true =>
    rw [hreads] at h
    have hun := hun.resolve_left (by simp [hreads])
    cases hs : a.storages with
    | nil =>
      rw [hs] at h
      cases hrest : a.rest <;> rw [hrest] at h
      · rfl
      · cases h
    | cons new news =>
      rw [hs] at hun
      have hfail : addStorage a.id g new = (g, false) := addStorage_untouched hun.1 hun.2
      simp [addStorages, hfail]

/-! ## The invariant -/

structure Inv (g : Guest) : Prop extends Tidy g where
  owners : ∀ s ∈ g.storages, ∀ x ∈ s.refContainer, x ∈ g.containers.map (·.id)
  bounded : ∀ s ∈ g.storages, s.refCount < 2 ^ 32
  live : ∀ x ∈ g.containers, ∀ k ∈ x.keys, Refers g x.id k

theorem init_inv {g : Guest} (h : Init g) : Inv g := by
  subst h
  refine ⟨⟨rfl, List.nodup_nil, ?_⟩, ?_, ?_, ?_⟩ <;> simp

theorem Inv.balanced (hinv : Inv g) : Balanced g := by
  constructor
  · intro x hx k hk
    obtain ⟨s, hs, hkey, -⟩ := hinv.live x hx k hk
    refine ⟨s, hs, hkey, ?_⟩
    rw [hinv.mounts]
    exact List.mem_map_of_mem hs
  · intro hnil
    rw [hinv.mounts, List.map_eq_nil_iff, List.eq_nil_iff_forall_not_mem]
    intro s hs
    obtain ⟨x, hx⟩ := Multiset.exists_mem_of_ne_zero (hinv.held s hs)
    have := hinv.owners s hs x hx
    rw [hnil] at this
    cases this

theorem Inv.adding (hinv : Inv g) (hbounded : ∀ s ∈ g.storages, s.refCount + n < 2 ^ 32) :
    Adding c n (g.storages.map key ++ a.storages.map (key ·.1)) g where
  toTidy := hinv.toTidy
  owners := fun s hs x hx => .inr (hinv.owners s hs x hx)
  bounded := hbounded
  keys := fun _ hs => List.mem_append_left _ (List.mem_map_of_mem hs)

theorem create_succeeded (h : (create a g).2 = true) :
    ∃ g₁, addStorages a.id g a.storages = (g₁, true) ∧
      (create a g).1 = { g₁ with containers := g₁.containers.filter (·.id ≠ a.id) ++
        [⟨a.id, a.storages.map (key ·.1)⟩] } := by
  unfold create at h ⊢
  cases hreads : a.reads <;> rw [hreads] at h
  · cases h
  rcases hadds : addStorages a.id g a.storages with ⟨g₁, _ | _⟩ <;> rw [hadds] at h
  · cases h
  cases hrest : a.rest <;> rw [hrest] at h
  · cases h
  · exact ⟨g₁, rfl, rfl⟩

theorem create_inv (hok : Sound (.create a) g) (hinv : Inv g) : Inv (create a g).1 := by
  obtain ⟨hfails, hnews, hbounded, hpoints⟩ := hok
  cases hres : (create a g).2 with
  | false =>
    rw [create_untouching (hfails hres) hres]
    exact hinv
  | true =>
    obtain ⟨g₁, hadds, hg'⟩ := create_succeeded hres
    obtain ⟨hadd, hgrow, hrefs⟩ := addStorages_adding hpoints hadds (hinv.adding hbounded)
      hnews fun new hnew => List.mem_append_right _ (List.mem_map_of_mem hnew)
    rw [hg']
    refine ⟨⟨hadd.mounts, hadd.points, hadd.held⟩, ?_, hadd.bounded, ?_⟩
    · intro s hs x hx
      rw [List.map_append, List.mem_append]
      by_cases hxa : x = a.id
      · exact .inr (by simp [hxa])
      · left
        obtain ⟨y, hy, rfl⟩ := List.mem_map.mp ((hadd.owners s hs x hx).resolve_left hxa)
        exact List.mem_map_of_mem (List.mem_filter.mpr ⟨hy, by simpa using hxa⟩)
    · intro x hx k hk
      rcases List.mem_append.mp hx with hx | hx
      · have hx := (List.mem_filter.mp hx).1
        rw [hgrow.containers] at hx
        have href : Refers g₁ x.id k := (hinv.live x hx k hk).grows hgrow
        exact href
      · obtain rfl := List.mem_singleton.mp hx
        obtain ⟨new, hnew, rfl⟩ := List.mem_map.mp hk
        exact hrefs new hnew

/-! ## Deleting -/

theorem unmount_eq_filter {p : String} {rs : List MountRecord}
    (h : (rs.map (·.mountPoint)).Nodup) : unmount p rs = rs.filter (·.mountPoint ≠ p) := by
  induction rs with
  | nil => rfl
  | cons r rs ih =>
    rw [List.map_cons, List.nodup_cons] at h
    by_cases hr : r.mountPoint = p
    · have hrest : rs.filter (·.mountPoint ≠ p) = rs := by
        refine List.filter_eq_self.mpr fun x hx => ?_
        have : x.mountPoint ≠ r.mountPoint := fun heq => h.1 (heq ▸ List.mem_map_of_mem hx)
        simpa [← hr] using this
      rw [unmount, if_pos ⟨hr, hr ▸ h.1⟩, List.filter_cons_of_neg (by simp [hr]), hrest]
    · rw [unmount, if_neg (fun hc => hr hc.1), List.filter_cons_of_pos (by simpa using hr), ih h.2]

/-- Unmounting storages takes the mounts at their mount points. -/
theorem foldl_unmount (hd : ∀ s, d.unmounts s = true) (removed : List Storages.Storage)
    {rs : List MountRecord} (h : (rs.map (·.mountPoint)).Nodup) :
    removed.foldl (fun ms x => if d.unmounts x then unmount x.mountPoint ms else ms) rs =
      rs.filter fun r => r.mountPoint ∉ removed.map (·.mountPoint) := by
  induction removed generalizing rs with
  | nil => simp
  | cons x removed ih =>
    have hnd : ((rs.filter (·.mountPoint ≠ x.mountPoint)).map (·.mountPoint)).Nodup :=
      h.sublist (List.filter_sublist.map _)
    rw [List.foldl_cons, if_pos (hd x), unmount_eq_filter h, ih hnd, List.filter_filter]
    refine List.filter_congr fun r _ => ?_
    rw [Bool.eq_iff_iff]
    simp only [Bool.and_eq_true, decide_eq_true_iff, List.map_cons, List.mem_cons, not_or]
    exact and_comm

/-- What the collection leaves mounted is what it leaves recorded. -/
theorem gcStorages_mounts (hd : ∀ s, d.unmounts s = true) (hm : g.mounts = g.storages.map record)
    (hp : (g.storages.map (·.mountPoint)).Nodup) :
    (gcStorages d g).mounts = (gcStorages d g).storages.map record := by
  have hnd : ((g.storages.map record).map (·.mountPoint)).Nodup := by
    rw [List.map_map]
    exact hp
  unfold gcStorages
  simp only [hm]
  rw [foldl_unmount hd _ hnd, List.filter_map]
  refine congrArg _ (List.filter_congr fun s hs => ?_)
  have hiff : s.mountPoint ∈ (g.storages.filter (refCount · = 0)).map (·.mountPoint) ↔
      refCount s = 0 := by
    constructor
    · intro hmem
      obtain ⟨s', hs', hpoint⟩ := List.mem_map.mp hmem
      obtain ⟨hs', hzero⟩ := List.mem_filter.mp hs'
      rw [← List.inj_on_of_nodup_map hp hs' hs hpoint]
      simpa using hzero
    · intro hzero
      exact List.mem_map_of_mem (List.mem_filter.mpr ⟨hs, by simpa using hzero⟩)
  rw [Bool.eq_iff_iff]
  simp only [Function.comp_apply, decide_eq_true_iff]
  exact not_congr hiff

theorem refCount_defer_ne_zero (hbounded : x.refCount < 2 ^ 32) {c d : String}
    (hc : c ∈ x.refContainer) (hne : c ≠ d) : refCount (x.defer d) ≠ 0 := by
  have hmem : c ∈ (x.defer d).refContainer := Multiset.mem_filter.mpr ⟨hc, hne⟩
  have hpos : 0 < (x.defer d).refCount := Multiset.card_pos_iff_exists_mem.mpr ⟨c, hmem⟩
  have hle : (x.defer d).refCount ≤ x.refCount := Multiset.card_le_card (Multiset.filter_le _ _)
  unfold refCount
  omega

theorem delete_inv (hok : Sound (.delete d) g) (hinv : Inv g) : Inv (delete d g) := by
  unfold delete
  split
  · exact hinv
  · have hm : (g.storages.map (Storages.Storage.defer d.id)).map record = g.mounts := by
      rw [List.map_map, hinv.mounts]
      rfl
    have hp : ((g.storages.map (Storages.Storage.defer d.id)).map (·.mountPoint)).Nodup := by
      rw [List.map_map]
      exact hinv.points
    have hcases : ∀ s ∈ (deferStorages d g).storages,
        refCount s ≠ 0 ∧ ∃ x ∈ g.storages, s = x.defer d.id := by
      intro s hs
      obtain ⟨hs, hne⟩ := List.mem_filter.mp hs
      obtain ⟨x, hx, rfl⟩ := List.mem_map.mp hs
      exact ⟨by simpa using hne, x, hx, rfl⟩
    refine ⟨⟨gcStorages_mounts hok hm.symm hp, ?_, ?_⟩, ?_, ?_, ?_⟩
    · exact hp.sublist (List.filter_sublist.map _)
    · intro s hs h0
      refine (hcases s hs).1 ?_
      rw [refCount, Storages.Storage.refCount, h0]
      rfl
    · intro s hs x hx
      obtain ⟨-, y, hy, rfl⟩ := hcases s hs
      obtain ⟨hx, hne⟩ := Multiset.mem_filter.mp hx
      obtain ⟨z, hz, rfl⟩ := List.mem_map.mp (hinv.owners y hy x hx)
      exact List.mem_map_of_mem (List.mem_filter.mpr ⟨hz, by simpa using hne⟩)
    · intro s hs
      obtain ⟨-, y, hy, rfl⟩ := hcases s hs
      exact lt_of_le_of_lt (Multiset.card_le_card (Multiset.filter_le _ _)) (hinv.bounded y hy)
    · intro x hx k hk
      obtain ⟨hx, hne⟩ := List.mem_filter.mp hx
      have hne : x.id ≠ d.id := by simpa using hne
      obtain ⟨s, hs, hkey, hc⟩ := hinv.live x hx k hk
      refine ⟨s.defer d.id, ?_, hkey, Multiset.mem_filter.mpr ⟨hc, hne⟩⟩
      refine List.mem_filter.mpr ⟨List.mem_map_of_mem hs, ?_⟩
      simpa using refCount_defer_ne_zero (hinv.bounded s hs) hc hne

theorem step_inv {l : Label} (hok : Sound l g) (h : next l g g') (hinv : Inv g) : Inv g' := by
  cases l with
  | create a =>
    obtain rfl : g' = (create a g).1 := h
    exact create_inv hok hinv
  | delete d =>
    obtain rfl : g' = delete d g := h
    exact delete_inv hok hinv

/-- In every run of sound creations and deletions, what live containers were created with is
mounted and nothing stays mounted when there is none; and a sound creation that fails leaves the
guest as it was. -/
theorem guest_storages_balanced {g : Guest} (h : Reachable Init (Guarded Sound next) g) :
    Balanced g ∧
      ∀ a, Sound (.create a) g → (create a g).2 = false → (create a g).1 = g := by
  have hinv := h.guarded_invariant (fun _ => init_inv) (fun _ _ _ hok hs hi => step_inv hok hs hi)
  refine ⟨hinv.balanced, ?_⟩
  intro a hok hfail
  exact create_untouching (hok.1 hfail) hfail

/-! ## Runs -/

/-- A temporary file system at a mount point, with references. -/
def tmpfs (mountPoint : String) (refs : Multiset String) : Storages.Storage where
  id := mountPoint
  deviceId := none
  cleanupPath := none
  ownedByRuntime := false
  hostSource := "tmpfs"
  type := "tmpfs"
  refContainer := refs
  needGuestHandle := true
  source := "tmpfs"
  driver := "ephemeral"
  driverOptions := []
  fstype := "tmpfs"
  options := []
  mountPoint := mountPoint
  lowerDirs := none
  sourceIdentity := none

/-- The creation of a container with one such file system, all of whose mounts succeed. -/
def creation (id : String) (refs : Multiset String) (rest : Bool) : Creation :=
  ⟨id, true, [(tmpfs ("/storage/" ++ id) refs, ⟨none, true, true, true⟩)], rest⟩

def deletion (id : String) : Deletion := ⟨id, true, fun _ => true⟩

def emptyGuest : Guest := ⟨[], [], []⟩

/-- A container that is referred to by its storage. -/
theorem creation_sound : Sound (.create (creation "a" {"a"} true)) emptyGuest := by
  refine ⟨nofun, ?_, by simp [emptyGuest], ?_⟩
  · intro new hnew
    obtain rfl := List.mem_singleton.mp hnew
    refine ⟨by decide, ?_, by decide⟩
    intro c hc
    exact .inl (Multiset.mem_singleton.mp hc)
  · intro k hk k' hk' _
    rw [List.mem_singleton.mp hk, List.mem_singleton.mp hk']

theorem guest_storages_balanced_creation :
    Balanced (create (creation "a" {"a"} true) emptyGuest).1 :=
  (guest_storages_balanced (.step (.init rfl : Reachable Init _ emptyGuest)
    ⟨.create (creation "a" {"a"} true), creation_sound, rfl⟩)).1

/-- The creation of `a` fails after its storage was mounted. -/
def failedCreation : Guest := (create (creation "a" {"a"} false) emptyGuest).1

/-- The storage of `a` comes without a reference of `a`; then `b` is created and deleted. -/
def deletedOther : Guest :=
  delete (deletion "b")
    (create (creation "b" {"b"} true) (create (creation "a" 0 true) emptyGuest).1).1

theorem failedCreation_reachable : Reachable Init (AnyStep next) failedCreation :=
  .step (.init rfl : Reachable Init _ emptyGuest) ⟨.create (creation "a" {"a"} false), rfl⟩

theorem deletedOther_reachable : Reachable Init (AnyStep next) deletedOther :=
  .step (.step (.step (.init rfl : Reachable Init _ emptyGuest)
    ⟨.create (creation "a" 0 true), rfl⟩) ⟨.create (creation "b" {"b"} true), rfl⟩)
    ⟨.delete (deletion "b"), rfl⟩

/-- A creation that fails leaves its storage mounted, though there is no container; and a storage
is unmounted while the container that was created with it lives. -/
theorem guest_storages_unbalanced :
    (Reachable Init (AnyStep next) failedCreation ∧
      (create (creation "a" {"a"} false) emptyGuest).2 = false ∧
      failedCreation.containers = [] ∧
      failedCreation.mounts = [⟨"/storage/a", "tmpfs", "tmpfs"⟩] ∧ ¬ Balanced failedCreation) ∧
    Reachable Init (AnyStep next) deletedOther ∧
      deletedOther.containers = [⟨"a", [⟨"tmpfs", "tmpfs", "/storage/a"⟩]⟩] ∧
      deletedOther.mounts = [] ∧ ¬ Balanced deletedOther := by
  have hmounts : failedCreation.mounts = [⟨"/storage/a", "tmpfs", "tmpfs"⟩] := by decide
  have hcontainers : deletedOther.containers = [⟨"a", [⟨"tmpfs", "tmpfs", "/storage/a"⟩]⟩] := by
    decide
  have hempty : deletedOther.mounts = [] := by decide
  refine ⟨⟨failedCreation_reachable, rfl, rfl, hmounts, ?_⟩, deletedOther_reachable, hcontainers,
    hempty, ?_⟩
  · intro hbal
    have hreleased := hbal.released rfl
    cases hreleased
  · intro hbal
    have hmounted := hbal.mounted
    obtain ⟨s, -, -, hs⟩ := hmounted _ (List.mem_singleton_self _) _ (List.mem_singleton_self _)
    cases hs

end Kuasar.GuestStorages

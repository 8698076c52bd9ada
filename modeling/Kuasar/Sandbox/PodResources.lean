import Kuasar.Data.Fallible
import Kuasar.Data.MachineInt
import Kuasar.Sandbox.Cpusets

/-!
# Sandbox.PodResources — the limits of the cgroup of a sandbox

The cgroup of a sandbox is limited to what its containers may use together and what the pod
overhead adds. `merge_resources` adds the two, field by field, and
`update_res_for_sandbox_cgroups` writes the sums to the files of the cgroup, in turn, except those
that are zero. It is called once, for the cgroups that were just made.

The sums are machine integers of 64 bits, and the values that mean "unlimited" are added like
others: `limits_summed_iff` says when the result is what it should be. Of a huge page size that both
lists have, the list of the total has two entries, and the one that is written last is that of the
overhead (`writeLimits_total`).
-/

namespace Kuasar.PodResources

open Fallible

structure HugepageLimit where
  pageSize : String
  limit : UInt64
  deriving DecidableEq, Repr

structure LinuxContainerResources where
  cpuPeriod : Int64 := 0
  cpuQuota : Int64 := 0
  cpuShares : Int64 := 0
  memoryLimitInBytes : Int64 := 0
  oomScoreAdj : Int64 := 0
  cpusetCpus : List Char := []
  cpusetMems : List Char := []
  hugepageLimits : List HugepageLimit := []
  unified : List (String × String) := []
  memorySwapLimitInBytes : Int64 := 0
  deriving DecidableEq

structure LinuxPodSandboxConfig where
  overhead : Option LinuxContainerResources
  resources : Option LinuxContainerResources

/-- One limit of the second list is added to those of its page size, and to the end of the list:
`found` stays false. -/
def addHugepageLimit (limits : List HugepageLimit) (h2 : HugepageLimit) : List HugepageLimit :=
  limits.map (fun l => if l.pageSize = h2.pageSize then { l with limit := l.limit + h2.limit }
    else l) ++ [h2]

/-- A key of the second map is added if the first does not have it. -/
def addUnified (unified : List (String × String)) (kv : String × String) :
    List (String × String) :=
  if unified.any (fun entry => entry.1 = kv.1) then unified else unified ++ [kv]

/-- The first list stays if the two cannot be merged. -/
def mergedCpuset (cpuset1 cpuset2 : List Char) : List Char :=
  match Cpusets.mergeCpusets cpuset1 cpuset2 with
  | .ok c => c
  | .error _ => cpuset1

/-- `merge_resources`. -/
def mergeResources (resource1 resource2 : LinuxContainerResources) : LinuxContainerResources where
  cpuPeriod := resource1.cpuPeriod
  cpuQuota :=
    if resource2.cpuPeriod ≠ 0 then
      resource1.cpuQuota + resource2.cpuQuota * resource1.cpuPeriod / resource2.cpuPeriod
    else resource1.cpuQuota
  cpuShares := resource1.cpuShares + resource2.cpuShares
  memoryLimitInBytes := resource1.memoryLimitInBytes + resource2.memoryLimitInBytes
  oomScoreAdj :=
    if resource1.oomScoreAdj > resource2.oomScoreAdj then resource1.oomScoreAdj
    else resource2.oomScoreAdj
  cpusetCpus := mergedCpuset resource1.cpusetCpus resource2.cpusetCpus
  cpusetMems := mergedCpuset resource1.cpusetMems resource2.cpusetMems
  hugepageLimits := resource2.hugepageLimits.foldl addHugepageLimit resource1.hugepageLimits
  unified := resource2.unified.foldl addUnified resource1.unified
  memorySwapLimitInBytes := resource1.memorySwapLimitInBytes + resource2.memorySwapLimitInBytes

/-- `get_total_resources`. There may be no configuration of a Linux pod. -/
def getTotalResources (linux : Option LinuxPodSandboxConfig) : Option LinuxContainerResources :=
  linux.bind fun l => l.resources.map fun resources =>
    match l.overhead with
    | none => resources
    | some overhead => mergeResources resources overhead

def getResources (linux : Option LinuxPodSandboxConfig) : Option LinuxContainerResources :=
  linux.bind fun l => l.resources

def getOverheadResources (linux : Option LinuxPodSandboxConfig) : Option LinuxContainerResources :=
  linux.bind fun l => l.overhead

/-! ## Cgroups -/

inductive Controller where
  | cpu
  | memory
  | cpuset
  | hugetlb
  deriving DecidableEq, Repr

/-- What is written to a file of a cgroup. -/
inductive Setting where
  | cfsPeriod (us : UInt64)
  | cfsQuota (us : Int64)
  | shares (n : UInt64)
  | limit (bytes : Int64)
  | memswapLimit (bytes : Int64)
  | cpus (list : List Char)
  | mems (list : List Char)
  | hugetlbLimit (pageSize : String) (bytes : UInt64)
  deriving DecidableEq

structure Cgroup where
  cfsPeriod : Option UInt64 := none
  cfsQuota : Option Int64 := none
  shares : Option UInt64 := none
  limit : Option Int64 := none
  memswapLimit : Option Int64 := none
  cpus : Option (List Char) := none
  mems : Option (List Char) := none
  hugetlb : String → Option UInt64 := fun _ => none

def Cgroup.put (g : Cgroup) : Setting → Cgroup
  | .cfsPeriod us => { g with cfsPeriod := some us }
  | .cfsQuota us => { g with cfsQuota := some us }
  | .shares n => { g with shares := some n }
  | .limit bytes => { g with limit := some bytes }
  | .memswapLimit bytes => { g with memswapLimit := some bytes }
  | .cpus list => { g with cpus := some list }
  | .mems list => { g with mems := some list }
  | .hugetlbLimit pageSize bytes =>
    { g with hugetlb := Function.update g.hugetlb pageSize (some bytes) }

inductive CgroupError where
  /-- No controller attached! -/
  | noController (c : Controller)
  /-- A number that must not be negative is. -/
  | outOfRange (value : Int64)
  /-- The kernel refuses the value. -/
  | refused (s : Setting)

/-- The cgroup as the kernel offers it: its controllers, and the values that it takes. -/
structure Interface where
  attached : Controller → Bool
  accepts : Cgroup → Setting → Bool

/-- Writing to a file. -/
def Interface.set (i : Interface) (s : Setting) (g : Cgroup) : Except CgroupError Cgroup :=
  if i.accepts g s then .ok (g.put s) else .error (.refused s)

/-- `controller_of`. -/
def Interface.controllerOf (i : Interface) (c : Controller) : Except CgroupError Unit :=
  if i.attached c then .ok () else .error (.noController c)

/-- `i64::try_into::<u64>`. -/
def tryInto (value : Int64) : Except CgroupError UInt64 :=
  if 0 ≤ value then .ok value.toUInt64 else .error (.outOfRange value)

section Apply

variable (i : Interface) (res : LinuxContainerResources)

/-- `apply_cpu_resource`. -/
def applyCpuResource (g : Cgroup) : Except CgroupError Cgroup := do
  i.controllerOf .cpu
  let g ← stepIf (res.cpuPeriod ≠ 0)
    (fun g => tryInto res.cpuPeriod >>= fun period => i.set (.cfsPeriod period) g) g
  let g ← stepIf (res.cpuQuota ≠ 0) (i.set (.cfsQuota res.cpuQuota)) g
  stepIf (res.cpuShares ≠ 0)
    (fun g => tryInto res.cpuShares >>= fun shares => i.set (.shares shares) g) g

/-- `apply_memory_resource`. -/
def applyMemoryResource (g : Cgroup) : Except CgroupError Cgroup := do
  i.controllerOf .memory
  let g ← stepIf (res.memoryLimitInBytes ≠ 0) (i.set (.limit res.memoryLimitInBytes)) g
  stepIf (res.memorySwapLimitInBytes ≠ 0) (i.set (.memswapLimit res.memorySwapLimitInBytes)) g

/-- `apply_cpuset_resources`. -/
def applyCpusetResources (g : Cgroup) : Except CgroupError Cgroup := do
  i.controllerOf .cpuset
  let g ← stepIf (res.cpusetCpus ≠ []) (i.set (.cpus res.cpusetCpus)) g
  stepIf (res.cpusetMems ≠ []) (i.set (.mems res.cpusetMems)) g

/-- `apply_hugetlb_resources`. -/
def applyHugetlbResources (g : Cgroup) : Except CgroupError Cgroup := do
  i.controllerOf .hugetlb
  res.hugepageLimits.foldlM (fun g h => i.set (.hugetlbLimit h.pageSize h.limit) g) g

end Apply

structure SandboxCgroup where
  sandbox : Cgroup := {}
  vcpu : Cgroup := {}
  podOverhead : Cgroup := {}

structure Kernel where
  sandbox : Interface
  vcpu : Interface
  podOverhead : Interface

/-- The four controllers of the cgroup of the sandbox. -/
def applyTotal (i : Interface) (total : LinuxContainerResources) (g : Cgroup) :
    Except CgroupError Cgroup := do
  let g ← applyCpuResource i total g
  let g ← applyMemoryResource i total g
  let g ← applyCpusetResources i total g
  applyHugetlbResources i total g

/-- A step for resources that may not be there. -/
def applyIfAny (res : Option LinuxContainerResources)
    (step : LinuxContainerResources → Cgroup → Except CgroupError Cgroup) (g : Cgroup) :
    Except CgroupError Cgroup :=
  match res with
  | some res => step res g
  | none => .ok g

/-- `update_res_for_sandbox_cgroups`. -/
def updateResForSandboxCgroups (kernel : Kernel) (linux : Option LinuxPodSandboxConfig)
    (s : SandboxCgroup) : Except CgroupError SandboxCgroup := do
  let sandbox ← applyIfAny (getTotalResources linux) (applyTotal kernel.sandbox) s.sandbox
  let vcpu ← applyIfAny (getResources linux) (applyCpuResource kernel.vcpu) s.vcpu
  let podOverhead ←
    applyIfAny (getOverheadResources linux) (applyCpuResource kernel.podOverhead) s.podOverhead
  return { sandbox, vcpu, podOverhead }

/-! ## What the steps write -/

variable {i : Interface} {res : LinuxContainerResources} {g g' : Cgroup}

theorem set_ok {s : Setting} (h : i.set s g = .ok g') : i.accepts g s = true ∧ g' = g.put s := by
  unfold Interface.set at h
  split at h
  · cases h
    exact ⟨‹_›, rfl⟩
  · cases h

variable {value : Int64} {limits : List HugepageLimit}

theorem tryInto_ok {n : UInt64} (h : tryInto value = .ok n) : 0 ≤ value ∧ n = value.toUInt64 := by
  unfold tryInto at h
  split at h
  · cases h
    exact ⟨‹_›, rfl⟩
  · cases h

/-- The value of a file after a step that writes it unless it is zero. -/
def written {α β : Type} [Zero α] [DecidableEq α] (f : α → β) (value : α) (before : Option β) :
    Option β :=
  if value ≠ 0 then some (f value) else before

/-- The value was written, or there was nothing to write. -/
def Taken (i : Interface) (s : Int64 → Setting) (value : Int64) : Prop :=
  value = 0 ∨ ∃ g, i.accepts g (s value) = true

/-- A file that is written unless the value is zero; `u` is the cgroup with each value of it. -/
theorem stepIf_set {s : Int64 → Setting} {u : Option Int64 → Cgroup} {before : Option Int64}
    (hput : g.put (s value) = u (some value)) (hbefore : g = u before)
    (h : stepIf (value ≠ 0) (i.set (s value)) g = .ok g') :
    Taken i s value ∧ g' = u (written id value before) := by
  rcases stepIf_ok h with ⟨hne, hset⟩ | ⟨heq, rfl⟩
  · obtain ⟨htaken, rfl⟩ := set_ok hset
    rw [written, if_pos hne]
    exact ⟨Or.inr ⟨g, htaken⟩, hput⟩
  · rw [written, if_neg heq]
    exact ⟨Or.inl (not_not.mp heq), hbefore⟩

/-- The same for a file that takes no negative numbers. -/
theorem stepIf_tryInto {s : UInt64 → Setting} {u : Option UInt64 → Cgroup}
    {before : Option UInt64} (hput : ∀ n, g.put (s n) = u (some n)) (hbefore : g = u before)
    (h : stepIf (value ≠ 0) (fun g => tryInto value >>= fun n => i.set (s n) g) g = .ok g') :
    0 ≤ value ∧ g' = u (written Int64.toUInt64 value before) := by
  rcases stepIf_ok h with ⟨hne, hstep⟩ | ⟨heq, rfl⟩
  · obtain ⟨n, hn, hset⟩ := bind_ok hstep
    obtain ⟨hle, rfl⟩ := tryInto_ok hn
    obtain ⟨-, rfl⟩ := set_ok hset
    rw [written, if_pos hne]
    exact ⟨hle, hput _⟩
  · rw [written, if_neg heq]
    rw [not_not] at heq
    exact ⟨by rw [heq]; decide, hbefore⟩

theorem applyCpuResource_ok (h : applyCpuResource i res g = .ok g') :
    0 ≤ res.cpuPeriod ∧ 0 ≤ res.cpuShares ∧ g' = { g with
      cfsPeriod := written Int64.toUInt64 res.cpuPeriod g.cfsPeriod
      cfsQuota := written id res.cpuQuota g.cfsQuota
      shares := written Int64.toUInt64 res.cpuShares g.shares } := by
  obtain ⟨_, -, h⟩ := bind_ok h
  obtain ⟨g₁, hperiod, h⟩ := bind_ok h
  obtain ⟨g₂, hquota, hshares⟩ := bind_ok h
  obtain ⟨hnonneg, rfl⟩ :=
    stepIf_tryInto (u := fun o => { g with cfsPeriod := o }) (fun _ => rfl) rfl hperiod
  obtain ⟨-, rfl⟩ := stepIf_set (u := fun o => { g with
    cfsPeriod := written Int64.toUInt64 res.cpuPeriod g.cfsPeriod, cfsQuota := o }) rfl rfl hquota
  obtain ⟨hnonneg', rfl⟩ := stepIf_tryInto (u := fun o => { g with
    cfsPeriod := written Int64.toUInt64 res.cpuPeriod g.cfsPeriod
    cfsQuota := written id res.cpuQuota g.cfsQuota
    shares := o }) (fun _ => rfl) rfl hshares
  exact ⟨hnonneg, hnonneg', rfl⟩

theorem applyMemoryResource_ok (h : applyMemoryResource i res g = .ok g') :
    Taken i .limit res.memoryLimitInBytes ∧ Taken i .memswapLimit res.memorySwapLimitInBytes ∧
      g' = { g with
        limit := written id res.memoryLimitInBytes g.limit
        memswapLimit := written id res.memorySwapLimitInBytes g.memswapLimit } := by
  obtain ⟨_, -, h⟩ := bind_ok h
  obtain ⟨g₁, hlimit, hswap⟩ := bind_ok h
  obtain ⟨htaken, rfl⟩ := stepIf_set (u := fun o => { g with limit := o }) rfl rfl hlimit
  obtain ⟨htaken', rfl⟩ := stepIf_set (u := fun o => { g with
    limit := written id res.memoryLimitInBytes g.limit, memswapLimit := o }) rfl rfl hswap
  exact ⟨htaken, htaken', rfl⟩

theorem applyCpusetResources_ok (h : applyCpusetResources i res g = .ok g') :
    ∃ cpus mems, g' = { g with cpus := cpus, mems := mems } := by
  obtain ⟨_, -, h⟩ := bind_ok h
  obtain ⟨g₁, hcpus, hmems⟩ := bind_ok h
  have hg₁ : ∃ cpus, g₁ = { g with cpus := cpus } := by
    rcases stepIf_ok hcpus with ⟨-, hset⟩ | ⟨-, rfl⟩
    · exact ⟨_, (set_ok hset).2⟩
    · exact ⟨g₁.cpus, rfl⟩
  obtain ⟨cpus, rfl⟩ := hg₁
  rcases stepIf_ok hmems with ⟨-, hset⟩ | ⟨-, rfl⟩
  · exact ⟨cpus, _, (set_ok hset).2⟩
  · exact ⟨cpus, g.mems, rfl⟩

/-- The limits in force after those of a list were written. -/
def writeLimits (inForce : String → Option UInt64) (limits : List HugepageLimit) :
    String → Option UInt64 :=
  limits.foldl (fun f h => Function.update f h.pageSize (some h.limit)) inForce

theorem writeLimits_concat (inForce : String → Option UInt64) (limits : List HugepageLimit)
    (h : HugepageLimit) : writeLimits inForce (limits ++ [h]) =
      Function.update (writeLimits inForce limits) h.pageSize (some h.limit) := by
  rw [writeLimits, List.foldl_append]
  rfl

theorem applyHugetlbResources_ok (h : applyHugetlbResources i res g = .ok g') :
    g' = { g with hugetlb := writeLimits g.hugetlb res.hugepageLimits } := by
  obtain ⟨_, -, h⟩ := bind_ok h
  let P : List HugepageLimit → Cgroup → Prop := fun done g' =>
    g' = { g with hugetlb := writeLimits g.hugetlb done }
  have hstep : ∀ done x s s', P done s →
      i.set (.hugetlbLimit x.pageSize x.limit) s = .ok s' → P (done ++ [x]) s' := by
    rintro done x s s' rfl hset
    rw [(set_ok hset).2]
    change _ = { g with hugetlb := writeLimits g.hugetlb (done ++ [x]) }
    rw [writeLimits_concat]
    rfl
  have hinit : P [] g := rfl
  exact foldlM_invariant P hstep hinit h

/-! ## Huge pages -/

/-- What was added to the earlier entries of a page size is written over. -/
theorem update_writeLimits_add (inForce : String → Option UInt64) (limits : List HugepageLimit)
    (h2 : HugepageLimit) (v : Option UInt64) :
    Function.update (writeLimits inForce (limits.map fun l =>
        if l.pageSize = h2.pageSize then { l with limit := l.limit + h2.limit } else l))
        h2.pageSize v =
      Function.update (writeLimits inForce limits) h2.pageSize v := by
  induction limits using List.reverseRecOn with
  | nil => rfl
  | append_singleton limits l ih =>
    rw [List.map_append, List.map_singleton, writeLimits_concat, writeLimits_concat]
    by_cases hl : l.pageSize = h2.pageSize
    · rw [if_pos hl, hl, Function.update_idem, Function.update_idem]
      exact ih
    · rw [if_neg hl, Function.update_comm hl, ih, Function.update_comm hl]

/-- The limits of the total, in force: those of the overhead over those of the containers. -/
theorem writeLimits_total (inForce : String → Option UInt64)
    (limits1 limits2 : List HugepageLimit) :
    writeLimits inForce (limits2.foldl addHugepageLimit limits1) =
      writeLimits (writeLimits inForce limits1) limits2 := by
  induction limits2 using List.reverseRecOn with
  | nil => rfl
  | append_singleton limits2 h2 ih =>
    rw [List.foldl_append, List.foldl_cons, List.foldl_nil, addHugepageLimit, writeLimits_concat,
      update_writeLimits_add, ih, writeLimits_concat]

/-- The limit that a list has for a page size; zero if it has none. -/
def limitFor (limits : List HugepageLimit) (pageSize : String) : ℕ :=
  match limits.find? (·.pageSize = pageSize) with
  | some h => h.limit.toNat
  | none => 0

/-- The page size is in the list. -/
def Names (limits : List HugepageLimit) (pageSize : String) : Prop :=
  ∃ h ∈ limits, h.pageSize = pageSize

instance (limits : List HugepageLimit) (pageSize : String) : Decidable (Names limits pageSize) :=
  inferInstanceAs (Decidable (∃ h ∈ limits, h.pageSize = pageSize))

/-- For every page size that the pod or its overhead names, the limit in force is the sum. -/
def HugepagesSummed (r1 r2 : LinuxContainerResources) (g : Cgroup) : Prop :=
  ∀ pageSize, Names r1.hugepageLimits pageSize ∨ Names r2.hugepageLimits pageSize →
    ∃ limit, g.hugetlb pageSize = some limit ∧ limit.toNat =
      limitFor r1.hugepageLimits pageSize + limitFor r2.hugepageLimits pageSize

theorem writeLimits_of_not_names {pageSize : String} {inForce : String → Option UInt64}
    (h : ¬ Names limits pageSize) : writeLimits inForce limits pageSize = inForce pageSize := by
  induction limits using List.reverseRecOn with
  | nil => rfl
  | append_singleton limits l ih =>
    rw [writeLimits_concat, Function.update_of_ne]
    · apply ih
      rintro ⟨l', hl', heq⟩
      exact h ⟨l', List.mem_append_left _ hl', heq⟩
    · rintro rfl
      exact h ⟨l, by simp, rfl⟩

theorem limitFor_of_not_names {pageSize : String} (h : ¬ Names limits pageSize) :
    limitFor limits pageSize = 0 := by
  have hfind : limits.find? (·.pageSize = pageSize) = none := by
    rw [List.find?_eq_none]
    intro l hl heq
    exact h ⟨l, hl, by simpa using heq⟩
  rw [limitFor, hfind]

/-- With one entry for a page size, this is the one that counts. -/
theorem limitFor_of_mem {l : HugepageLimit} (hdistinct : (limits.map (·.pageSize)).Nodup)
    (hl : l ∈ limits) : limitFor limits l.pageSize = l.limit.toNat := by
  rw [limitFor, FirstMatch.find?_of_nodup_map hdistinct hl]

theorem writeLimits_of_mem {l : HugepageLimit} {inForce : String → Option UInt64}
    (hdistinct : (limits.map (·.pageSize)).Nodup) (hl : l ∈ limits) :
    writeLimits inForce limits l.pageSize = some l.limit := by
  induction limits using List.reverseRecOn with
  | nil => cases hl
  | append_singleton limits x ih =>
    rw [List.map_append, List.nodup_append] at hdistinct
    rw [writeLimits_concat]
    rcases List.mem_append.mp hl with hl | hl
    · have hne : l.pageSize ≠ x.pageSize :=
        hdistinct.2.2 _ (List.mem_map_of_mem hl) _ (by simp)
      rw [Function.update_of_ne hne]
      exact ih hdistinct.1 hl
    · rw [List.mem_singleton] at hl
      rw [hl, Function.update_self]

/-! ## The total -/

def podOf (resources overhead : LinuxContainerResources) : Option LinuxPodSandboxConfig :=
  some { resources := some resources, overhead := some overhead }

variable {kernel : Kernel} {s s' : SandboxCgroup} {r1 r2 : LinuxContainerResources}

/-- What an update that succeeds leaves in the cgroup of the sandbox. -/
structure Applied (i : Interface) (total : LinuxContainerResources) (g g' : Cgroup) : Prop where
  period_nonneg : 0 ≤ total.cpuPeriod
  shares_nonneg : 0 ≤ total.cpuShares
  cfsPeriod : g'.cfsPeriod = written Int64.toUInt64 total.cpuPeriod g.cfsPeriod
  cfsQuota : g'.cfsQuota = written id total.cpuQuota g.cfsQuota
  limit : g'.limit = written id total.memoryLimitInBytes g.limit
  limit_taken : Taken i .limit total.memoryLimitInBytes
  memswapLimit : g'.memswapLimit = written id total.memorySwapLimitInBytes g.memswapLimit
  memswapLimit_taken : Taken i .memswapLimit total.memorySwapLimitInBytes
  hugetlb : g'.hugetlb = writeLimits g.hugetlb total.hugepageLimits

theorem applyTotal_ok {total : LinuxContainerResources} (h : applyTotal i total g = .ok g') :
    Applied i total g g' := by
  obtain ⟨g₁, hcpu, h⟩ := bind_ok h
  obtain ⟨g₂, hmemory, h⟩ := bind_ok h
  obtain ⟨g₃, hcpuset, hhugetlb⟩ := bind_ok h
  obtain ⟨hnonneg, hnonneg', rfl⟩ := applyCpuResource_ok hcpu
  obtain ⟨hlimit, hswap, rfl⟩ := applyMemoryResource_ok hmemory
  obtain ⟨cpus, mems, rfl⟩ := applyCpusetResources_ok hcpuset
  rw [applyHugetlbResources_ok hhugetlb]
  exact ⟨hnonneg, hnonneg', rfl, rfl, rfl, hlimit, rfl, hswap, rfl⟩

theorem update_ok (h : updateResForSandboxCgroups kernel (podOf r1 r2) s = .ok s') :
    Applied kernel.sandbox (mergeResources r1 r2) s.sandbox s'.sandbox ∧ 0 ≤ r1.cpuShares ∧
      0 ≤ r2.cpuPeriod ∧ 0 ≤ r2.cpuShares := by
  obtain ⟨sandbox, hsandbox, h⟩ := bind_ok h
  obtain ⟨vcpu, hvcpu, h⟩ := bind_ok h
  obtain ⟨podOverhead, hoverhead, h⟩ := bind_ok h
  cases h
  obtain ⟨hperiod, hshares, -⟩ := applyCpuResource_ok hoverhead
  exact ⟨applyTotal_ok hsandbox, (applyCpuResource_ok hvcpu).2.1, hperiod, hshares⟩

/-- **Huge page limits.** After an update the limits in force are the sums exactly if the pod has a
limit of zero for each page size that both name. -/
theorem hugepage_limits_summed_iff (hdistinct1 : (r1.hugepageLimits.map (·.pageSize)).Nodup)
    (hdistinct2 : (r2.hugepageLimits.map (·.pageSize)).Nodup)
    (h : updateResForSandboxCgroups kernel (podOf r1 r2) s = .ok s') :
    HugepagesSummed r1 r2 s'.sandbox ↔
      ∀ l ∈ r1.hugepageLimits, Names r2.hugepageLimits l.pageSize → l.limit = 0 := by
  have hinForce : s'.sandbox.hugetlb =
      writeLimits (writeLimits s.sandbox.hugetlb r1.hugepageLimits) r2.hugepageLimits := by
    rw [(update_ok h).1.hugetlb]
    exact writeLimits_total _ _ _
  unfold HugepagesSummed
  rw [hinForce]
  constructor
  · rintro hall l hl ⟨l2, hl2, hsize⟩
    obtain ⟨limit, hlimit, hsum⟩ := hall l.pageSize (Or.inl ⟨l, hl, rfl⟩)
    rw [← hsize, writeLimits_of_mem hdistinct2 hl2, Option.some.injEq] at hlimit
    rw [limitFor_of_mem hdistinct1 hl, ← hsize, limitFor_of_mem hdistinct2 hl2, ← hlimit] at hsum
    have hzero : l.limit.toNat = (0 : UInt64).toNat := by
      rw [UInt64.toNat_zero]
      omega
    exact UInt64.toNat_inj.mp hzero
  · rintro hzero pageSize hnames
    by_cases h2 : Names r2.hugepageLimits pageSize
    · obtain ⟨l2, hl2, rfl⟩ := h2
      refine ⟨l2.limit, writeLimits_of_mem hdistinct2 hl2, ?_⟩
      rw [limitFor_of_mem hdistinct2 hl2]
      by_cases h1 : Names r1.hugepageLimits l2.pageSize
      · obtain ⟨l, hl, hsize⟩ := h1
        have hl0 := hzero l hl ⟨l2, hl2, hsize.symm⟩
        rw [← hsize, limitFor_of_mem hdistinct1 hl, hl0, UInt64.toNat_zero, Nat.zero_add]
      · rw [limitFor_of_not_names h1, Nat.zero_add]
    · obtain ⟨l, hl, rfl⟩ := hnames.resolve_right h2
      refine ⟨l.limit, ?_, ?_⟩
      · rw [writeLimits_of_not_names h2, writeLimits_of_mem hdistinct1 hl]
      · rw [limitFor_of_mem hdistinct1 hl, limitFor_of_not_names h2, Nat.add_zero]

/-- A kernel that has all controllers and takes all values but memory limits below minus one. -/
def plainInterface : Interface where
  attached := fun _ => true
  accepts := fun _ s =>
    match s with
    | .limit bytes => decide (-1 ≤ bytes)
    | .memswapLimit bytes => decide (-1 ≤ bytes)
    | _ => true

def plainKernel : Kernel := ⟨plainInterface, plainInterface, plainInterface⟩

/-- Two page sizes, one for the pod and one for its overhead. -/
theorem hugepage_limits_apart : ∃ s',
    updateResForSandboxCgroups plainKernel
      (podOf { hugepageLimits := [⟨"2MB", 10⟩] } { hugepageLimits := [⟨"1GB", 5⟩] }) {} = .ok s' ∧
    HugepagesSummed { hugepageLimits := [⟨"2MB", 10⟩] } { hugepageLimits := [⟨"1GB", 5⟩] }
      s'.sandbox := by
  obtain ⟨s', hs'⟩ : ∃ s', updateResForSandboxCgroups plainKernel (podOf
      { hugepageLimits := [⟨"2MB", 10⟩] } { hugepageLimits := [⟨"1GB", 5⟩] }) {} = .ok s' :=
    ⟨_, rfl⟩
  exact ⟨s', hs', (hugepage_limits_summed_iff (by decide) (by decide) hs').mpr (by decide)⟩

/-- Of one page size that both name, the limit of the overhead is in force alone. -/
theorem hugepage_limit_overwritten : ∃ s',
    updateResForSandboxCgroups plainKernel
      (podOf { hugepageLimits := [⟨"2MB", 10⟩] } { hugepageLimits := [⟨"2MB", 5⟩] }) {} = .ok s' ∧
    s'.sandbox.hugetlb "2MB" = some 5 ∧
    limitFor [⟨"2MB", 10⟩] "2MB" + limitFor [⟨"2MB", 5⟩] "2MB" = 15 :=
  ⟨_, rfl, by decide, by decide⟩

/-! ## Limits that may be unlimited -/

/-- A limit, as it is enforced. -/
inductive Bound where
  | unlimited
  | atMost (n : ℤ)
  deriving DecidableEq, Repr

def Bound.Allows : Bound → Bound → Prop
  | _, .unlimited => True
  | .unlimited, .atMost _ => False
  | .atMost m, .atMost n => m ≤ n

/-- What a value of the resources asks for. -/
def asked (value : ℤ) : Bound :=
  if value = 0 ∨ value = -1 then .unlimited else .atMost value

/-- What a memory limit enforces. A cgroup is made without limits. -/
def memoryBound : Option Int64 → Bound
  | none => .unlimited
  | some bytes => if bytes.toInt = -1 then .unlimited else .atMost bytes.toInt

/-- What a CPU quota enforces: every negative one means no limit. -/
def quotaBound : Option Int64 → Bound
  | none => .unlimited
  | some us => if us.toInt < 0 then .unlimited else .atMost us.toInt

def defaultPeriod : ℤ := 100000

def periodInForce : Option UInt64 → ℤ
  | none => defaultPeriod
  | some us => us.toNat

def askedPeriod (period : ℤ) : ℤ := if period = 0 then defaultPeriod else period

open MachineInt (Fits)

/-- The limit of the total is what it should be: unlimited if the containers are, else the sum, not
below what the containers ask for, and the sum is a machine integer. -/
def LimitSummed (value1 value2 : ℤ) (inForce : Bound) : Prop :=
  Fits 64 (value1 + value2) ∧ (asked value1).Allows inForce ∧
    inForce = if value1 = 0 ∨ value1 = -1 then .unlimited else .atMost (value1 + value2)

/-- What the overhead adds to the quota, for the period of the containers. -/
def overheadShare (r1 r2 : LinuxContainerResources) : ℤ :=
  if r2.cpuPeriod = 0 then 0
  else (r2.cpuQuota.toInt * r1.cpuPeriod.toInt).tdiv r2.cpuPeriod.toInt

/-- No machine integer overflows while the quota is computed. -/
def QuotaFits (r1 r2 : LinuxContainerResources) : Prop :=
  r2.cpuPeriod ≠ 0 → Fits 64 (r2.cpuQuota.toInt * r1.cpuPeriod.toInt) ∧
    Fits 64 (r1.cpuQuota.toInt + overheadShare r1 r2)

instance (r1 r2 : LinuxContainerResources) : Decidable (QuotaFits r1 r2) :=
  inferInstanceAs (Decidable (r2.cpuPeriod ≠ 0 →
    Fits 64 (r2.cpuQuota.toInt * r1.cpuPeriod.toInt) ∧
      Fits 64 (r1.cpuQuota.toInt + overheadShare r1 r2)))

/-- The difference is a rounding. -/
def Within (bound n : ℤ) : Prop := -bound < n ∧ n < bound

/-- The ratio of quota and period is what it should be: unlimited if the containers are, else the
sum of the two ratios up to the rounding of the quota, and not below that of the containers. -/
def CpuSummed (r1 r2 : LinuxContainerResources) (g : Cgroup) : Prop :=
  let quota1 := r1.cpuQuota.toInt
  let period1 := askedPeriod r1.cpuPeriod.toInt
  let quota2 := r2.cpuQuota.toInt
  let period2 := askedPeriod r2.cpuPeriod.toInt
  QuotaFits r1 r2 ∧
    if quota1 = 0 ∨ quota1 = -1 then quotaBound g.cfsQuota = .unlimited
    else ∃ quota, quotaBound g.cfsQuota = .atMost quota ∧ periodInForce g.cfsPeriod = period1 ∧
      quota1 ≤ quota ∧ Within period2 (quota * period2 - (quota1 * period2 + quota2 * period1))

structure LimitsSummed (r1 r2 : LinuxContainerResources) (g : Cgroup) : Prop where
  cpu : CpuSummed r1 r2 g
  memory : LimitSummed r1.memoryLimitInBytes.toInt r2.memoryLimitInBytes.toInt
    (memoryBound g.limit)
  swap : LimitSummed r1.memorySwapLimitInBytes.toInt r2.memorySwapLimitInBytes.toInt
    (memoryBound g.memswapLimit)

/-! ### When they are -/

/-- The values can be added: a value that means unlimited means it still with what is added, and
another does not shrink and is positive then. -/
def Addable (unlimited : ℤ → Prop) (value added : ℤ) : Prop :=
  (value = 0 ∨ value = -1 → unlimited (value + added)) ∧
    (value ≠ 0 → value ≠ -1 → 0 ≤ added ∧ 0 < value + added)

/-- The overhead's quota counts: both periods are given, or it is too small to matter. -/
def ShareCounts (r1 r2 : LinuxContainerResources) : Prop :=
  (r1.cpuPeriod ≠ 0 ∧ r2.cpuPeriod ≠ 0) ∨
    Within (askedPeriod r2.cpuPeriod.toInt)
      (r2.cpuQuota.toInt * askedPeriod r1.cpuPeriod.toInt)

/-- The overhead's share can be added to the quota. Every negative quota is none. -/
structure QuotaAddable (r1 r2 : LinuxContainerResources) : Prop where
  fits : QuotaFits r1 r2
  addable : Addable (· ≤ 0) r1.cpuQuota.toInt (overheadShare r1 r2)
  share : r1.cpuQuota.toInt ≠ 0 → r1.cpuQuota.toInt ≠ -1 → ShareCounts r1 r2

/-- Memory limits can be added. No limit is written as zero or minus one. -/
structure MemoryAddable (value1 value2 : Int64) : Prop where
  fits : Fits 64 (value1.toInt + value2.toInt)
  addable : Addable (fun n => n = 0 ∨ n = -1) value1.toInt value2.toInt

/-- The values of the pod and its overhead can be written, and added. -/
structure CanBeSummed (r1 r2 : LinuxContainerResources) : Prop where
  periods : 0 ≤ r1.cpuPeriod ∧ 0 ≤ r2.cpuPeriod
  shares : 0 ≤ r1.cpuShares ∧ 0 ≤ r2.cpuShares
  sharesFit : Fits 64 (r1.cpuShares.toInt + r2.cpuShares.toInt)
  quota : QuotaAddable r1 r2
  memory : MemoryAddable r1.memoryLimitInBytes r2.memoryLimitInBytes
  swap : MemoryAddable r1.memorySwapLimitInBytes r2.memorySwapLimitInBytes

/-- All controllers are there, and every value is taken but memory limits below minus one. -/
structure Interface.Accepting (i : Interface) : Prop where
  attached : ∀ c, i.attached c = true
  accepts : ∀ g s, i.accepts g s = true ↔
    ∀ bytes, s = .limit bytes ∨ s = .memswapLimit bytes → -1 ≤ bytes.toInt

structure Kernel.Accepting (kernel : Kernel) : Prop where
  sandbox : kernel.sandbox.Accepting
  vcpu : kernel.vcpu.Accepting
  podOverhead : kernel.podOverhead.Accepting

theorem toInt_eq_zero : value.toInt = 0 ↔ value = 0 := by
  rw [← Int64.toInt_zero, Int64.toInt_inj]

theorem toInt_ne_zero (h : value ≠ 0) : value.toInt ≠ 0 :=
  fun hzero => h (toInt_eq_zero.mp hzero)

theorem toInt_add_of_fits {a b : Int64} (h : Fits 64 (a.toInt + b.toInt)) :
    (a + b).toInt = a.toInt + b.toInt := by
  rw [Int64.toInt_add]
  exact MachineInt.wrapping_of_fits (by omega) h

/-- What is written to a new cgroup means what a value of the resources does. -/
theorem memoryBound_written (value : Int64) :
    memoryBound (written id value none) = asked value.toInt := by
  unfold written asked
  by_cases hzero : value = 0
  · simp [memoryBound, hzero]
  · have hne : value.toInt ≠ 0 := toInt_ne_zero hzero
    simp [memoryBound, hzero, hne]

theorem quotaBound_written (value : Int64) : quotaBound (written id value none) =
    if value.toInt ≤ 0 then .unlimited else .atMost value.toInt := by
  unfold written
  by_cases hzero : value = 0
  · simp [quotaBound, hzero]
  · have hne : value.toInt ≠ 0 := toInt_ne_zero hzero
    rw [if_pos hzero, quotaBound, id]
    by_cases hneg : value.toInt < 0
    · rw [if_pos hneg, if_pos (by omega)]
    · rw [if_neg hneg, if_neg (by omega)]

/-- Memory and swap: of the sum, only its meaning has to be compared. -/
theorem limitSummed_iff {a b : ℤ} (htotal : Fits 64 (a + b) → -1 ≤ a + b) :
    LimitSummed a b (asked (a + b)) ↔
      Fits 64 (a + b) ∧ Addable (fun n => n = 0 ∨ n = -1) a b := by
  apply and_congr_right
  intro hfits
  have hlow := htotal hfits
  unfold asked Addable
  by_cases hunlimited : a = 0 ∨ a = -1
  · rw [if_pos hunlimited, if_pos hunlimited]
    by_cases htotal : a + b = 0 ∨ a + b = -1
    · rw [if_pos htotal]
      simp only [Bound.Allows, true_and, true_iff]
      omega
    · rw [if_neg htotal]
      simp only [Bound.Allows, false_and, false_iff]
      omega
  · rw [if_neg hunlimited, if_neg hunlimited]
    by_cases htotal : a + b = 0 ∨ a + b = -1
    · rw [if_pos htotal]
      simp only [Bound.Allows, reduceCtorEq, and_false, false_iff]
      omega
    · rw [if_neg htotal]
      simp only [Bound.Allows, and_true]
      omega

theorem total_limit_iff {a b : Int64} {limit : Option Int64}
    (htaken : a + b = 0 ∨ -1 ≤ (a + b).toInt) (hlimit : limit = written id (a + b) none) :
    LimitSummed a.toInt b.toInt (memoryBound limit) ↔ MemoryAddable a b := by
  have hmk : MemoryAddable a b ↔ Fits 64 (a.toInt + b.toInt) ∧
      Addable (fun n => n = 0 ∨ n = -1) a.toInt b.toInt :=
    ⟨fun h => ⟨h.fits, h.addable⟩, fun h => ⟨h.1, h.2⟩⟩
  rw [hlimit, memoryBound_written, hmk]
  by_cases hfits : Fits 64 (a.toInt + b.toInt)
  · rw [toInt_add_of_fits hfits] at htaken ⊢
    apply limitSummed_iff
    intro _
    rcases htaken with hzero | hle
    · rw [← toInt_eq_zero, toInt_add_of_fits hfits] at hzero
      omega
    · exact hle
  · constructor
    · intro h
      exact absurd h.1 hfits
    · intro h
      exact absurd h.1 hfits

/-! ### The quota -/

theorem tdiv_fits {n d : ℤ} (hn : Fits 64 n) (hd : 0 < d) : Fits 64 (n.tdiv d) := by
  have habs := Int.natAbs_tdiv_le_natAbs n d
  unfold Fits at hn ⊢
  rcases Int.le_total 0 n with hpos | hneg
  · omega
  · have hquotient := Int.tdiv_nonneg (Int.neg_nonneg_of_nonpos hneg) (le_of_lt hd)
    rw [Int.neg_tdiv] at hquotient
    omega

theorem total_quota (hfits : QuotaFits r1 r2) (hperiod : 0 ≤ r2.cpuPeriod) :
    (mergeResources r1 r2).cpuQuota.toInt = r1.cpuQuota.toInt + overheadShare r1 r2 := by
  by_cases hzero : r2.cpuPeriod = 0
  · simp [mergeResources, overheadShare, hzero]
  · obtain ⟨hproduct, hsum⟩ := hfits hzero
    have hpos : 0 < r2.cpuPeriod.toInt := by
      have hne : r2.cpuPeriod.toInt ≠ 0 := toInt_ne_zero hzero
      rw [Int64.le_iff_toInt_le, Int64.toInt_zero] at hperiod
      omega
    have hshare : (r2.cpuQuota * r1.cpuPeriod / r2.cpuPeriod).toInt = overheadShare r1 r2 := by
      rw [Int64.toInt_div, Int64.toInt_mul, overheadShare, if_neg hzero]
      rw [show (r2.cpuQuota.toInt * r1.cpuPeriod.toInt).bmod (2 ^ 64) = _ from
        MachineInt.wrapping_of_fits (by omega) hproduct]
      exact MachineInt.wrapping_of_fits (by omega) (tdiv_fits hproduct hpos)
    have hmerge : (mergeResources r1 r2).cpuQuota =
        r1.cpuQuota + r2.cpuQuota * r1.cpuPeriod / r2.cpuPeriod := if_pos hzero
    rw [hmerge, toInt_add_of_fits (by rw [hshare]; exact hsum), hshare]

theorem periodInForce_written {period : Int64} (h : 0 ≤ period) :
    periodInForce (written Int64.toUInt64 period none) = askedPeriod period.toInt := by
  unfold written askedPeriod
  by_cases hzero : period = 0
  · simp [periodInForce, hzero]
  · have hne : period.toInt ≠ 0 := toInt_ne_zero hzero
    rw [if_pos hzero, if_neg hne, periodInForce, Int64.toNat_toUInt64_of_le h]
    rw [Int64.le_iff_toInt_le, Int64.toInt_zero] at h
    exact Int.toNat_of_nonneg h

/-- The share of the overhead is its ratio for the period of the containers, up to rounding,
exactly if it counts. -/
theorem within_share_iff (h2 : 0 ≤ r2.cpuPeriod) :
    Within (askedPeriod r2.cpuPeriod.toInt) (overheadShare r1 r2 * askedPeriod r2.cpuPeriod.toInt -
        r2.cpuQuota.toInt * askedPeriod r1.cpuPeriod.toInt) ↔ ShareCounts r1 r2 := by
  rw [Int64.le_iff_toInt_le, Int64.toInt_zero] at h2
  by_cases hboth : r1.cpuPeriod ≠ 0 ∧ r2.cpuPeriod ≠ 0
  · obtain ⟨h1ne, h2ne⟩ := hboth
    have h1int : r1.cpuPeriod.toInt ≠ 0 := toInt_ne_zero h1ne
    have h2int : r2.cpuPeriod.toInt ≠ 0 := toInt_ne_zero h2ne
    have hcounts : ShareCounts r1 r2 := Or.inl ⟨h1ne, h2ne⟩
    simp only [hcounts, iff_true]
    rw [askedPeriod, if_neg h2int, askedPeriod, if_neg h1int, overheadShare, if_neg h2ne]
    -- what is missing is the remainder of the division
    have hdiv := Int.mul_tdiv_add_tmod (r2.cpuQuota.toInt * r1.cpuPeriod.toInt) r2.cpuPeriod.toInt
    have hlt := Int.tmod_lt_of_pos (r2.cpuQuota.toInt * r1.cpuPeriod.toInt)
      (show 0 < r2.cpuPeriod.toInt by omega)
    have hgt := Int.lt_tmod_of_pos (r2.cpuQuota.toInt * r1.cpuPeriod.toInt)
      (show 0 < r2.cpuPeriod.toInt by omega)
    rw [Int.mul_comm] at hdiv
    unfold Within
    omega
  · have hshare : overheadShare r1 r2 = 0 := by
      unfold overheadShare
      by_cases hzero2 : r2.cpuPeriod = 0
      · rw [if_pos hzero2]
      · have hzero1 : r1.cpuPeriod = 0 := by
          by_contra hne
          exact hboth ⟨hne, hzero2⟩
        rw [if_neg hzero2, hzero1, Int64.toInt_zero, Int.mul_zero, Int.zero_tdiv]
    rw [hshare, ShareCounts, Int.zero_mul]
    simp only [hboth, false_or]
    unfold Within
    omega

/-- The quota of the total in a new cgroup. -/
theorem cpuSummed_iff {g : Cgroup} (h1 : 0 ≤ r1.cpuPeriod) (h2 : 0 ≤ r2.cpuPeriod)
    (hperiod : g.cfsPeriod = written Int64.toUInt64 r1.cpuPeriod none)
    (hquota : g.cfsQuota = written id (mergeResources r1 r2).cpuQuota none) :
    CpuSummed r1 r2 g ↔ QuotaAddable r1 r2 := by
  have hmk : QuotaAddable r1 r2 ↔ QuotaFits r1 r2 ∧
      Addable (· ≤ 0) r1.cpuQuota.toInt (overheadShare r1 r2) ∧
      (r1.cpuQuota.toInt ≠ 0 → r1.cpuQuota.toInt ≠ -1 → ShareCounts r1 r2) :=
    ⟨fun h => ⟨h.fits, h.addable, h.share⟩, fun h => ⟨h.1, h.2.1, h.2.2⟩⟩
  rw [hmk]
  apply and_congr_right
  intro hfits
  rw [hperiod, periodInForce_written h1, hquota, quotaBound_written, total_quota hfits h2]
  unfold Addable
  by_cases hunlimited : r1.cpuQuota.toInt = 0 ∨ r1.cpuQuota.toInt = -1
  · rw [if_pos hunlimited]
    by_cases hsum : r1.cpuQuota.toInt + overheadShare r1 r2 ≤ 0
    · simp only [if_pos hsum, true_iff]
      omega
    · simp only [if_neg hsum, reduceCtorEq, false_iff]
      omega
  · rw [if_neg hunlimited]
    rw [not_or] at hunlimited
    have hdiff : (r1.cpuQuota.toInt + overheadShare r1 r2) * askedPeriod r2.cpuPeriod.toInt -
        (r1.cpuQuota.toInt * askedPeriod r2.cpuPeriod.toInt +
          r2.cpuQuota.toInt * askedPeriod r1.cpuPeriod.toInt) =
        overheadShare r1 r2 * askedPeriod r2.cpuPeriod.toInt -
          r2.cpuQuota.toInt * askedPeriod r1.cpuPeriod.toInt := by
      rw [Int.add_mul]
      omega
    constructor
    · rintro ⟨quota, hquota, -, hle, hwithin⟩
      split at hquota
      · cases hquota
      · cases hquota
        rw [hdiff, within_share_iff h2] at hwithin
        exact ⟨by omega, fun _ _ => hwithin⟩
    · rintro ⟨⟨-, hadd⟩, hcounts⟩
      refine ⟨_, if_neg (by omega), rfl, by omega, ?_⟩
      rw [hdiff, within_share_iff h2]
      exact hcounts hunlimited.1 hunlimited.2

theorem Taken.le {s : Int64 → Setting} (hi : i.Accepting)
    (hs : s value = .limit value ∨ s value = .memswapLimit value) (h : Taken i s value) :
    value = 0 ∨ -1 ≤ value.toInt := by
  rcases h with hzero | ⟨g, haccepts⟩
  · exact Or.inl hzero
  · exact Or.inr ((hi.accepts g _).mp haccepts value hs)

/-- What an update that succeeds leaves is what it should be exactly if the limits can be added. -/
theorem applied_summed_iff (hi : i.Accepting) (h2 : 0 ≤ r2.cpuPeriod)
    (happlied : Applied i (mergeResources r1 r2) {} g') :
    LimitsSummed r1 r2 g' ↔ QuotaAddable r1 r2 ∧
      MemoryAddable r1.memoryLimitInBytes r2.memoryLimitInBytes ∧
      MemoryAddable r1.memorySwapLimitInBytes r2.memorySwapLimitInBytes := by
  have hcpu : CpuSummed r1 r2 g' ↔ QuotaAddable r1 r2 :=
    cpuSummed_iff happlied.period_nonneg h2 happlied.cfsPeriod happlied.cfsQuota
  have hmemory := total_limit_iff (a := r1.memoryLimitInBytes) (b := r2.memoryLimitInBytes)
    (happlied.limit_taken.le hi (Or.inl rfl)) happlied.limit
  have hswap := total_limit_iff (a := r1.memorySwapLimitInBytes) (b := r2.memorySwapLimitInBytes)
    (happlied.memswapLimit_taken.le hi (Or.inr rfl)) happlied.memswapLimit
  rw [← hcpu, ← hmemory, ← hswap]
  exact ⟨fun h => ⟨h.cpu, h.memory, h.swap⟩, fun h => ⟨h.1, h.2.1, h.2.2⟩⟩

/-! ### Updates that succeed -/

section

variable (hi : i.Accepting)

include hi

theorem set_succeeds {s : Setting}
    (h : ∀ bytes, s = .limit bytes ∨ s = .memswapLimit bytes → -1 ≤ bytes.toInt) :
    Succeeds (i.set s g) :=
  ⟨g.put s, if_pos ((hi.accepts g s).mpr h)⟩

theorem controllerOf_succeeds (c : Controller) : Succeeds (i.controllerOf c) :=
  ⟨(), if_pos (hi.attached c)⟩

theorem applyCpuResource_succeeds (hperiod : 0 ≤ res.cpuPeriod) (hshares : 0 ≤ res.cpuShares) :
    Succeeds (applyCpuResource i res g) := by
  have htry : ∀ {value : Int64}, 0 ≤ value → Succeeds (tryInto value) :=
    fun h => ⟨_, if_pos h⟩
  refine (controllerOf_succeeds hi _).bind fun _ => .bind (.stepIf fun _ => ?_) fun _ =>
    .bind (.stepIf fun _ => ?_) fun _ => .stepIf fun _ => ?_
  · exact (htry hperiod).bind fun _ => set_succeeds hi (by simp)
  · exact set_succeeds hi (by simp)
  · exact (htry hshares).bind fun _ => set_succeeds hi (by simp)

theorem applyMemoryResource_succeeds (hlimit : -1 ≤ res.memoryLimitInBytes.toInt)
    (hswap : -1 ≤ res.memorySwapLimitInBytes.toInt) :
    Succeeds (applyMemoryResource i res g) := by
  refine (controllerOf_succeeds hi _).bind fun _ => .bind (.stepIf fun _ => ?_) fun _ =>
    .stepIf fun _ => ?_
  · exact set_succeeds hi (by simpa using hlimit)
  · exact set_succeeds hi (by simpa using hswap)

theorem applyTotal_succeeds (hperiod : 0 ≤ res.cpuPeriod) (hshares : 0 ≤ res.cpuShares)
    (hlimit : -1 ≤ res.memoryLimitInBytes.toInt) (hswap : -1 ≤ res.memorySwapLimitInBytes.toInt) :
    Succeeds (applyTotal i res g) := by
  refine (applyCpuResource_succeeds hi hperiod hshares).bind fun _ =>
    (applyMemoryResource_succeeds hi hlimit hswap).bind fun _ => .bind ?_ fun _ => ?_
  · exact (controllerOf_succeeds hi _).bind fun _ => .bind (.stepIf fun _ => set_succeeds hi
      (by simp)) fun _ => .stepIf fun _ => set_succeeds hi (by simp)
  · exact (controllerOf_succeeds hi _).bind fun _ => .foldlM (fun _ _ => set_succeeds hi
      (by simp)) _ _

end

theorem CanBeSummed.update_succeeds (hkernel : kernel.Accepting) (h : CanBeSummed r1 r2) :
    Succeeds (updateResForSandboxCgroups kernel (podOf r1 r2) s) := by
  have hlow : ∀ {a b : Int64}, MemoryAddable a b → -1 ≤ (a + b).toInt := by
    intro a b hab
    have hadd := hab.addable
    rw [toInt_add_of_fits hab.fits]
    unfold Addable at hadd
    omega
  have hshares : 0 ≤ (mergeResources r1 r2).cpuShares := by
    obtain ⟨hshares1, hshares2⟩ := h.shares
    rw [Int64.le_iff_toInt_le, Int64.toInt_zero] at *
    change 0 ≤ (r1.cpuShares + r2.cpuShares).toInt
    rw [toInt_add_of_fits h.sharesFit]
    omega
  refine .bind (applyTotal_succeeds hkernel.sandbox h.periods.1 hshares (hlow h.memory)
    (hlow h.swap)) fun _ => .bind (applyCpuResource_succeeds hkernel.vcpu h.periods.1
    h.shares.1) fun _ => .bind (applyCpuResource_succeeds hkernel.podOverhead h.periods.2
    h.shares.2) fun _ => ⟨_, rfl⟩

/-- A sum of shares that is not negative has not wrapped. -/
theorem fits_of_nonneg {a b : Int64} (ha : 0 ≤ a) (hb : 0 ≤ b) (hsum : 0 ≤ a + b) :
    Fits 64 (a.toInt + b.toInt) := by
  rw [Int64.le_iff_toInt_le, Int64.toInt_zero] at ha hb hsum
  rw [Int64.toInt_add, Int.bmod] at hsum
  have hlt := a.toInt_lt
  have hlt' := b.toInt_lt
  unfold Fits
  split at hsum <;> omega

/-- **The limits of the total.** The update of a new sandbox cgroup succeeds, and the CPU ratio and
the memory and swap limits are what they should be, exactly if the values of the pod and its
overhead can be added. -/
theorem limits_summed_iff (r1 r2 : LinuxContainerResources) (hkernel : kernel.Accepting) :
    (∃ s', updateResForSandboxCgroups kernel (podOf r1 r2) {} = .ok s' ∧
      LimitsSummed r1 r2 s'.sandbox) ↔ CanBeSummed r1 r2 := by
  constructor
  · rintro ⟨s', hupdate, hsummed⟩
    obtain ⟨happlied, hshares1, hperiod2, hshares2⟩ := update_ok hupdate
    obtain ⟨hquota, hmemory, hswap⟩ :=
      (applied_summed_iff hkernel.sandbox hperiod2 happlied).mp hsummed
    exact ⟨⟨happlied.period_nonneg, hperiod2⟩, ⟨hshares1, hshares2⟩,
      fits_of_nonneg hshares1 hshares2 happlied.shares_nonneg, hquota, hmemory, hswap⟩
  · intro h
    obtain ⟨s', hs'⟩ := h.update_succeeds (s := {}) hkernel
    obtain ⟨happlied, -, hperiod2, -⟩ := update_ok hs'
    exact ⟨s', hs', (applied_summed_iff hkernel.sandbox hperiod2 happlied).mpr
      ⟨h.quota, h.memory, h.swap⟩⟩

theorem plainInterface_accepting : plainInterface.Accepting := by
  refine ⟨fun _ => rfl, fun g s => ?_⟩
  cases s <;> simp [plainInterface, Int64.le_iff_toInt_le]

/-- Half a CPU and one gigabyte for the containers, and a fifth of a CPU in another period and a
hundred megabytes for the overhead. -/
theorem limits_summed_ordinary : ∃ s',
    updateResForSandboxCgroups plainKernel
      (podOf { cpuPeriod := 100000, cpuQuota := 50000, memoryLimitInBytes := 1000000000,
               memorySwapLimitInBytes := -1 }
        { cpuPeriod := 50000, cpuQuota := 10000, memoryLimitInBytes := 100000000 }) {} = .ok s' ∧
    LimitsSummed { cpuPeriod := 100000, cpuQuota := 50000, memoryLimitInBytes := 1000000000,
                   memorySwapLimitInBytes := -1 }
      { cpuPeriod := 50000, cpuQuota := 10000, memoryLimitInBytes := 100000000 } s'.sandbox := by
  have haccepts := plainInterface_accepting
  refine (limits_summed_iff _ _ ⟨haccepts, haccepts, haccepts⟩).mpr ?_
  exact ⟨by decide, by decide, by decide, ⟨by decide, by unfold Addable; decide,
    fun _ _ => Or.inl ⟨by decide, by decide⟩⟩, ⟨by decide, by unfold Addable; decide⟩, ⟨by decide,
    by unfold Addable; decide⟩⟩

/-- Containers without a memory limit are limited to the memory of the overhead. -/
theorem unlimited_memory_limited : ∃ s',
    updateResForSandboxCgroups plainKernel (podOf {} { memoryLimitInBytes := 100000000 }) {} =
      .ok s' ∧
    asked ({} : LinuxContainerResources).memoryLimitInBytes.toInt = .unlimited ∧
    memoryBound s'.sandbox.limit = .atMost 100000000 :=
  ⟨_, rfl, by decide, by decide⟩

end Kuasar.PodResources

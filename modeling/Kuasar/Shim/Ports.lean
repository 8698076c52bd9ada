import Mathlib.Data.Finset.Erase
import Mathlib.Data.Finset.Insert
import Mathlib.Algebra.Order.Group.Multiset
import Kuasar.Shim.TaskList

/-!
# Shim.Ports — the vsock ports of the standard streams

Every standard stream of a container or an exec process has a port of its own, reserved in a set
that all requests of the shim share. A request reserves up to three of them, one at a time, then
prepares its container or process and records it with its ports; `delete` takes the record out and
is to give the ports back.

`remove_port` gives nothing back: the removals stand in an iterator adaptor that is dropped before
an element is pulled through it. Nor does a request that fails after it reserved. So the set is
that of the live streams only if no request fails with a port in its hands, and nothing that has a
port is deleted (`NoLeak`). A `delete` does not return either: it keeps the lock of the record while
it waits for `purge`, which takes that lock.
-/

namespace Kuasar.Shim.Ports

open Tla FirstMatch

/-! ## The port set -/

/-- `20000..65536`. -/
def allPorts : List ℤ := (List.range' 20000 (65536 - 20000)).map (↑)

/-- `find_available_port`, under the lock of the set. -/
def findAvailablePort (ports : Finset ℤ) : Option (ℤ × Finset ℤ) :=
  (allPorts.find? (· ∉ ports)).map fun i => (i, insert i ports)

/-- An iterator adaptor acts on the elements that are pulled through it, and on no others. -/
def pulled {α σ : Type} (n : ℕ) (f : α → σ → σ) (xs : List α) (s : σ) : σ :=
  (xs.take n).foldl (fun s x => f x s) s

/-- `remove_port`: the adaptor is bound to `_`, and nothing pulls. -/
def removePort (io : VSockTransport) (ports : Finset ℤ) : Finset ℤ :=
  pulled 0 (fun v ports => ports.erase v.port) [io.stdin, io.stdout, io.stderr].reduceOption ports

theorem removePort_eq (io : VSockTransport) (ports : Finset ℤ) : removePort io ports = ports :=
  rfl

theorem findAvailablePort_some {ports ports' : Finset ℤ} {i : ℤ}
    (h : findAvailablePort ports = some (i, ports')) : ports'.val = i ::ₘ ports.val := by
  obtain ⟨j, hj, hij⟩ := Option.map_eq_some_iff.mp h
  cases hij
  have hfree : i ∉ ports := by simpa using List.find?_some hj
  exact Finset.insert_val_of_notMem hfree

theorem findAvailablePort_none {ports : Finset ℤ} (h : findAvailablePort ports = none) :
    ∀ p ∈ allPorts, p ∈ ports := by
  have hall := List.find?_eq_none.mp (Option.map_eq_none_iff.mp h)
  intro p hp
  simpa using hall p hp

/-! ## The ports of what is recorded -/

def portOf : Option VsockIO → Multiset ℤ
  | none => 0
  | some v => {v.port}

def ioPorts (io : VSockTransport) : Multiset ℤ :=
  portOf io.stdin + portOf io.stdout + portOf io.stderr

def containerPorts (c : ContainerData VSockTransport) : Multiset ℤ :=
  ioPorts c.io + (c.processes.map (ioPorts ·.io)).sum

def recordedPorts (d : SandboxData VSockTransport) : Multiset ℤ :=
  (d.containers.map containerPorts).sum

/-! ## Requests -/

inductive Request where
  | create (req : CreateTaskRequest)
  | exec (req : ExecProcessRequest)

def Request.stdio : Request → Stdio
  | .create req => ⟨req.stdin, req.stdout, req.stderr, req.terminal⟩
  | .exec req => ⟨req.stdin, req.stdout, req.stderr, req.terminal⟩

/-- `prepare_container` or `prepare_exec`. -/
def Request.prepare (io : VSockTransport) : Request → Call VSockTransport
  | .create req => .prepareContainer io req
  | .exec req => .prepareExec io req

/-- `trim_start_matches`: a string of `n` characters has been trimmed after at most `n` times. -/
def trimStartMatches (pre s : List Char) : List Char :=
  (fun t => if pre.isPrefixOf t then t.drop pre.length else t)^[s.length] s

/-- The socket path in the address of the task server: what stands before the first colon. -/
def sockPath (taskAddr : String) : Option String :=
  let addr := trimStartMatches hvsockPrefix.toList taskAddr.toList
  if ':' ∈ addr then some (String.ofList (addr.takeWhile (· ≠ ':'))) else none

/-- Where a request stands. While it opens its streams it holds those that it has opened. -/
inductive Pc where
  | idle
  | stdin (r : Request) (path : String)
  | stdout (r : Request) (path : String) (i : Option VsockIO)
  | stderr (r : Request) (path : String) (i o : Option VsockIO)
  | opened (r : Request) (io : VSockTransport)
  | recorded (io : VSockTransport)
  | purging

/-- The stream that a request opens next: whether it is asked for, the socket, and where the
request is afterwards. -/
def Pc.opens : Pc → Option (Bool × String × (Option VsockIO → Pc))
  | .stdin r path => some (!r.stdio.stdin.isEmpty, path, .stdout r path)
  | .stdout r path i => some (!r.stdio.stdout.isEmpty, path, .stderr r path i)
  | .stderr r path i o => some (!r.stdio.stderr.isEmpty && !r.stdio.terminal, path,
      fun e => .opened r ⟨i, o, e, r.stdio⟩)
  | _ => none

/-- The ports that a request has reserved and not recorded. -/
def Pc.pending : Pc → Multiset ℤ
  | .stdout _ _ i => portOf i
  | .stderr _ _ i o => portOf i + portOf o
  | .opened _ io => ioPorts io
  | _ => 0

def Pc.ports : Pc → Multiset ℤ
  | .recorded io => ioPorts io
  | pc => pc.pending

/-- The reserved ports, the record, and whether a `delete` holds the lock of the record. -/
structure Shared where
  ports : Finset ℤ
  data : SandboxData VSockTransport
  locked : Bool

/-- The part of `delete` under the lock of the record. -/
def Shared.delete (containerId execId : String) (g : Shared) : Shared :=
  match g.data.getContainerData containerId with
  | none => g
  | some c =>
    if execId.isEmpty then
      { g with
        ports := removePort c.io g.ports, data := g.data.deleteContainerData containerId }
    else
      match c.getProcessData execId with
      | none => g
      | some p =>
        let containers :=
          updateFirst (·.id = containerId) (.deleteProcessData execId) g.data.containers
        { g with
          ports := removePort p.io g.ports, data := { g.data with containers := containers } }

/-- What a step does to what a request or the record holds. -/
inductive Effect where
  | quiet
  | fails
  | deletes (containerId execId : String)

inductive Step : Effect → Shared → Pc → Shared → Pc → Prop where
  | new {g path} (r : Request) (taskAddr : String) (h : sockPath taskAddr = some path) :
      Step .quiet g .idle g (.stdin r path)
  | wrongAddress {g} (r : Request) (taskAddr : String) (h : sockPath taskAddr = none) :
      Step .fails g .idle g .idle
  -- a stream that is not asked for has no port
  | skip {g pc path k} (h : pc.opens = some (false, path, k)) : Step .quiet g pc g (k none)
  | reserve {g pc path k i ports} (h : pc.opens = some (true, path, k))
      (hfind : findAvailablePort g.ports = some (i, ports)) :
      Step .quiet g pc { g with ports := ports } (k (some ⟨path, i⟩))
  | noPort {g pc path k} (h : pc.opens = some (true, path, k))
      (hfind : findAvailablePort g.ports = none) : Step .fails g pc g .idle
  -- a container whose spec cannot be read fails without the lock
  | prepareFails {g r io} (h : g.locked = false ∨ ∃ req, r = .create req) :
      Step .fails g (.opened r io) g .idle
  | prepare {g r io d} (hfree : g.locked = false) (h : (r.prepare io).record g.data = some d) :
      Step .quiet g (.opened r io) { g with data := d } (.recorded io)
  -- the request to the guest and `copy`, whether they fail or not
  | finish {g io} : Step .quiet g (.recorded io) g .idle
  | start {g} : Step .quiet g .idle g .idle
  | deleteFails {g} : Step .quiet g .idle g .idle
  -- the lock is kept, and `purge` waits for it
  | delete {g} (containerId execId : String) (hfree : g.locked = false) :
      Step (.deletes containerId execId) g .idle
        { g.delete containerId execId with locked := true } .purging

abbrev St := Sys Shared Pc

def next (l : ℕ × Effect) : Action St := TaskStep (Step l.2) l.1

def Init : StatePred St := fun s =>
  s.shared = ⟨∅, {}, false⟩ ∧ ∀ pc ∈ s.tasks, pc = .idle

/-! ## The property -/

/-- The port is that of a recorded stream or of a request in progress. -/
def Live (s : St) (p : ℤ) : Prop :=
  p ∈ recordedPorts s.shared.data ∨ ∃ pc ∈ s.tasks, p ∈ pc.ports

/-- The reserved ports are those of the live streams, no two of which share one, and there is no
port left only if all are held. -/
structure Exact (s : St) : Prop where
  reserved : ∀ p, p ∈ s.shared.ports ↔ Live s p
  distinct : (recordedPorts s.shared.data + (s.tasks.map Pc.pending).sum).Nodup
  exhausted : findAvailablePort s.shared.ports = none → ∀ p ∈ allPorts, Live s p

/-- What `delete` would take out has no port. -/
def Portless (d : SandboxData VSockTransport) (containerId execId : String) : Prop :=
  ∀ c ∈ d.containers, c.id = containerId →
    if execId.isEmpty then containerPorts c = 0
    else ∀ p ∈ c.processes, p.id = execId → ioPorts p.io = 0

/-- No request fails with a port in its hands, and nothing that has a port is deleted. -/
def NoLeak (l : ℕ × Effect) (s : St) : Prop :=
  match l.2 with
  | .quiet => True
  | .fails => ∀ pc, s.tasks[l.1]? = some pc → pc.pending = 0
  | .deletes containerId execId => Portless s.shared.data containerId execId

/-! ## What the steps do to the ports -/

variable {pc : Pc} {d : SandboxData VSockTransport} {containerId execId : String} {s s' : St}

theorem pending_opens {wanted : Bool} {path : String} {k : Option VsockIO → Pc}
    (h : pc.opens = some (wanted, path, k)) (v : Option VsockIO) :
    (k v).pending = pc.pending + portOf v ∧ (k v).ports = (k v).pending := by
  cases pc with
  | stdin r path =>
    cases h
    exact ⟨(zero_add _).symm, rfl⟩
  | stdout r path i | stderr r path i o =>
    cases h
    exact ⟨rfl, rfl⟩
  | idle | opened | recorded | purging => cases h

theorem pending_le_ports (pc : Pc) : pc.pending ≤ pc.ports := by
  cases pc with
  | recorded io => exact Multiset.zero_le _
  | idle | stdin | stdout | stderr | opened | purging => exact le_rfl

theorem containerPorts_addProcessData (c : ContainerData VSockTransport) (id : String)
    (io : VSockTransport) :
    containerPorts (c.addProcessData ⟨id, io⟩) = containerPorts c + ioPorts io := by
  simp only [containerPorts, ContainerData.addProcessData, List.map_append, List.sum_append,
    List.map_cons, List.map_nil, List.sum_cons, List.sum_nil, add_zero, add_assoc]

theorem mem_sum_map {α : Type} {w : α → Multiset ℤ} {l : List α} {p : ℤ} :
    p ∈ (l.map w).sum ↔ ∃ x ∈ l, p ∈ w x := by
  induction l with
  | nil => simp
  | cons x l ih => rw [List.map_cons, List.sum_cons, Multiset.mem_add, ih, List.exists_mem_cons_iff]

/-- Elements that weigh nothing may be left out of a sum. -/
theorem sum_filter_of_zero {α : Type} {w : α → Multiset ℤ} {p : α → Bool} {l : List α}
    (h : ∀ x ∈ l, p x = false → w x = 0) : ((l.filter p).map w).sum = (l.map w).sum := by
  induction l with
  | nil => rfl
  | cons x l ih =>
    have ih' := ih fun y hy => h y (List.mem_cons_of_mem x hy)
    rcases hp : p x with _ | _
    · rw [List.filter_cons_of_neg (by simp [hp]), ih', List.map_cons, List.sum_cons,
        h x List.mem_cons_self hp, zero_add]
    · rw [List.filter_cons_of_pos hp, List.map_cons, List.map_cons, List.sum_cons, List.sum_cons,
        ih']

theorem prepare_recordedPorts {r : Request} {io : VSockTransport}
    {d' : SandboxData VSockTransport} (h : (r.prepare io).record d = some d') :
    recordedPorts d' = recordedPorts d + ioPorts io := by
  cases r with
  | create req =>
    cases h
    simp [recordedPorts, SandboxData.addContainerData, containerPorts]
  | exec req =>
    obtain ⟨c, hc, rfl⟩ := Option.map_eq_some_iff.mp h
    exact sum_map_updateFirst hc (containerPorts_addProcessData c req.execId io)

theorem deleteContainerData_recordedPorts (hport : Portless d containerId execId)
    (hexec : execId.isEmpty = true) :
    recordedPorts (d.deleteContainerData containerId) = recordedPorts d := by
  refine sum_filter_of_zero fun c hc hid => ?_
  have := hport c hc (by simpa using hid)
  rwa [if_pos hexec] at this

theorem deleteProcessData_recordedPorts {c : ContainerData VSockTransport}
    (hport : Portless d containerId execId) (hexec : ¬ execId.isEmpty = true)
    (hc : d.getContainerData containerId = some c) :
    ((updateFirst (·.id = containerId) (.deleteProcessData execId) d.containers).map
      containerPorts).sum = recordedPorts d := by
  have hprocs := hport c (List.mem_of_find?_eq_some hc) (by simpa using List.find?_some hc)
  rw [if_neg hexec] at hprocs
  have hsame : containerPorts (c.deleteProcessData execId) = containerPorts c + 0 := by
    rw [add_zero]
    refine congrArg (ioPorts c.io + ·) (sum_filter_of_zero fun p hp hid => ?_)
    exact hprocs p hp (by simpa using hid)
  rw [sum_map_updateFirst hc hsame, add_zero]
  rfl

/-- `delete` gives back no port and takes none out of the record. -/
theorem delete_ports {g : Shared} (hport : Portless g.data containerId execId) :
    (g.delete containerId execId).ports = g.ports ∧
      recordedPorts (g.delete containerId execId).data = recordedPorts g.data := by
  unfold Shared.delete
  split
  · exact ⟨rfl, rfl⟩
  · rename_i c hc
    split
    · rename_i hexec
      exact ⟨removePort_eq c.io g.ports, deleteContainerData_recordedPorts hport hexec⟩
    · rename_i hexec
      split
      · exact ⟨rfl, rfl⟩
      · rename_i p hp
        exact ⟨removePort_eq p.io g.ports, deleteProcessData_recordedPorts hport hexec hc⟩

/-! ## The invariant -/

/-- Every reserved port is in the record or in the hands of a request, once; a request that goes on
after its streams were recorded finds them in the record. -/
structure Inv (s : St) : Prop where
  balance : s.shared.ports.val = recordedPorts s.shared.data + (s.tasks.map Pc.pending).sum
  known : ∀ pc ∈ s.tasks, pc.ports = pc.pending ∨ pc.ports ≤ recordedPorts s.shared.data

theorem init_inv (h : Init s) : Inv s := by
  obtain ⟨hshared, hidle⟩ := h
  constructor
  · have hzero : (s.tasks.map Pc.pending).sum = 0 := sum_weight_idle rfl hidle
    rw [hshared, hzero]
    rfl
  · intro pc hpc
    rw [hidle pc hpc]
    exact .inl rfl

/-- A step of one request: what it reserves or records is what its own part gains or loses. -/
theorem inv_of_set {s s' : St} {i : ℕ} {pc pc' : Pc} (hi : s.tasks[i]? = some pc)
    (htasks : s'.tasks = s.tasks.set i pc')
    (hbal : s'.shared.ports.val + (recordedPorts s.shared.data + pc.pending) =
      s.shared.ports.val + (recordedPorts s'.shared.data + pc'.pending))
    (hle : recordedPorts s.shared.data ≤ recordedPorts s'.shared.data)
    (hknown : pc'.ports = pc'.pending ∨ pc'.ports ≤ recordedPorts s'.shared.data)
    (hinv : Inv s) : Inv s' := by
  constructor
  · have hsum := sum_weight_set (w := Pc.pending) pc' hi
    rw [← htasks] at hsum
    rw [hinv.balance] at hbal
    refine add_right_cancel (b := recordedPorts s.shared.data + pc.pending) (hbal.trans ?_)
    calc recordedPorts s.shared.data + (s.tasks.map Pc.pending).sum +
          (recordedPorts s'.shared.data + pc'.pending)
        = recordedPorts s.shared.data + recordedPorts s'.shared.data +
          ((s.tasks.map Pc.pending).sum + pc'.pending) := add_add_add_comm ..
      _ = recordedPorts s'.shared.data + recordedPorts s.shared.data +
          ((s'.tasks.map Pc.pending).sum + pc.pending) := by
            rw [← hsum, add_comm (recordedPorts s.shared.data)]
      _ = _ := add_add_add_comm ..
  · intro m hm
    rw [htasks] at hm
    rcases List.mem_or_eq_of_mem_set hm with hm | rfl
    · exact (hinv.known m hm).imp_right fun h => h.trans hle
    · exact hknown

/-- A step that reserves and records nothing and leaves what the request has in its hands. -/
theorem inv_of_same {i : ℕ} {pc' : Pc} (hi : s.tasks[i]? = some pc)
    (htasks : s'.tasks = s.tasks.set i pc') (hshared : s'.shared = s.shared)
    (hpend : pc'.pending = pc.pending) (hports : pc'.ports = pc'.pending) (hinv : Inv s) :
    Inv s' := by
  refine inv_of_set hi htasks ?_ ?_ (.inl hports) hinv
  · rw [hshared, hpend]
  · rw [hshared]

theorem step_inv {l : ℕ × Effect} (hok : NoLeak l s) (h : next l s s') (hinv : Inv s) : Inv s' := by
  obtain ⟨i, e⟩ := l
  obtain ⟨pc, pc', hi, hstep, htasks⟩ := h
  generalize hg : s'.shared = g at hstep
  cases hstep with
  | new | wrongAddress | finish | start | deleteFails =>
    exact inv_of_same hi htasks hg rfl rfl hinv
  | skip h =>
    obtain ⟨hpend, hports⟩ := pending_opens h none
    rw [portOf, add_zero] at hpend
    exact inv_of_same hi htasks hg hpend hports hinv
  | reserve h hfind =>
    rename_i path k p ports
    obtain ⟨hpend, hports⟩ := pending_opens h (some ⟨path, p⟩)
    refine inv_of_set hi htasks ?_ (by rw [hg]) (.inl hports) hinv
    rw [hg, hpend, findAvailablePort_some hfind, ← Multiset.singleton_add, add_assoc,
      add_left_comm, add_comm ({p} : Multiset ℤ), add_assoc, portOf]
  | noPort | prepareFails =>
    -- the request fails with no port in its hands
    have hpend := hok _ hi
    exact inv_of_same hi htasks hg hpend.symm rfl hinv
  | prepare hfree h =>
    have hrec := prepare_recordedPorts h
    refine inv_of_set hi htasks ?_ ?_ (.inr ?_) hinv
    · rw [hg]
      simp only [hrec, Pc.pending, add_zero]
    · rw [hg, hrec]
      exact Multiset.le_add_right _ _
    · rw [hg, hrec]
      exact Multiset.le_add_left _ _
  | delete containerId execId =>
    obtain ⟨hports, hrec⟩ := delete_ports hok
    exact inv_of_set hi htasks (by rw [hg, hports, hrec]; rfl) (by rw [hg, hrec]) (.inl rfl) hinv

theorem Inv.exact (hinv : Inv s) : Exact s := by
  have hmem : ∀ p, p ∈ s.shared.ports ↔ Live s p := by
    intro p
    rw [← Finset.mem_val, hinv.balance, Multiset.mem_add]
    constructor
    · rintro (h | h)
      · exact .inl h
      · obtain ⟨pc, hpc, hp⟩ := mem_sum_map.mp h
        exact .inr ⟨pc, hpc, Multiset.mem_of_le (pending_le_ports pc) hp⟩
    · rintro (h | ⟨pc, hpc, hp⟩)
      · exact .inl h
      · rcases hinv.known pc hpc with hsame | hle
        · exact .inr (mem_sum_map.mpr ⟨pc, hpc, hsame ▸ hp⟩)
        · exact .inl (Multiset.mem_of_le hle hp)
  refine ⟨hmem, ?_, ?_⟩
  · rw [← hinv.balance]
    exact s.shared.ports.nodup
  · intro h p hp
    exact (hmem p).mp (findAvailablePort_none h p hp)

/-- In every run in which no request fails with a port in its hands and nothing that has a port is
deleted, the reserved ports are those of the live streams. -/
theorem ports_exact {s : St} (h : Reachable Init (Guarded NoLeak next) s) : Exact s :=
  (h.guarded_invariant (fun _ => init_inv) (fun _ _ _ hok hs hi => step_inv hok hs hi)).exact

/-- A container with a standard output. -/
def webRequest : CreateTaskRequest := ⟨"web", "", [], "", "/fifo/out", "", false⟩

/-- Its stream at the first port. -/
def webIo : VSockTransport :=
  ⟨none, some ⟨"/run/vm/task.vsock", 20000⟩, none, ⟨"", "/fifo/out", "", false⟩⟩

/-- The container is recorded and its request at an end. -/
def webLive : St := ⟨⟨{20000}, { containers := [{ id := "web", io := webIo }] }, false⟩, [.idle]⟩

theorem firstPort : findAvailablePort ∅ = some (20000, {20000}) := rfl

/-- The request has opened its stream. -/
theorem webOpened_reachable : Reachable Init (Guarded NoLeak next)
    ⟨⟨{20000}, {}, false⟩, [.opened (.create webRequest) webIo]⟩ := by
  have h₀ : Reachable Init (Guarded NoLeak next) ⟨⟨∅, {}, false⟩, [.idle]⟩ := .init ⟨rfl, by simp⟩
  have h₁ := h₀.step ⟨(0, .quiet), trivial, TaskStep.of_step rfl
    (.new (.create webRequest) "hvsock:///run/vm/task.vsock:1024" rfl)⟩
  have h₂ := h₁.step ⟨(0, .quiet), trivial, TaskStep.of_step rfl (.skip rfl)⟩
  have h₃ := h₂.step ⟨(0, .quiet), trivial, TaskStep.of_step rfl (.reserve rfl firstPort)⟩
  have h₄ := h₃.step ⟨(0, .quiet), trivial, TaskStep.of_step rfl (.skip rfl)⟩
  exact h₄

theorem ports_exact_webLive : Reachable Init (Guarded NoLeak next) webLive ∧ Exact webLive := by
  have h₁ := webOpened_reachable.step
    ⟨(0, .quiet), trivial, TaskStep.of_step rfl (.prepare rfl rfl)⟩
  have h₂ := h₁.step ⟨(0, .quiet), trivial, TaskStep.of_step rfl .finish⟩
  exact ⟨h₂, ports_exact h₂⟩

/-- The container could not be prepared, no request is in progress, and its port is reserved. -/
theorem failed_create_keeps_port :
    ∃ s : St, Reachable Init (AnyStep next) s ∧ (∀ pc ∈ s.tasks, pc = .idle) ∧
      s.shared.data.containers = [] ∧ s.shared.ports = {20000} ∧ ¬ Exact s := by
  have h := webOpened_reachable.unguarded.anyStep (0, Effect.fails)
    (TaskStep.of_step rfl (.prepareFails (.inl rfl)))
  refine ⟨_, h, by simp, rfl, rfl, ?_⟩
  intro hexact
  rcases (hexact.reserved 20000).mp (Finset.mem_singleton_self _) with h | ⟨pc, hpc, h⟩
  · exact Multiset.notMem_zero _ h
  · obtain rfl : pc = .idle := List.mem_singleton.mp hpc
    exact Multiset.notMem_zero _ h

end Kuasar.Shim.Ports

import Kuasar.Tla.Tasks
import Kuasar.Sandbox.Restore

/-!
# Sandbox.Monitor — the tasks that wait for the VM of a sandbox to exit

Every start that gets its VM to run spawns a monitor. The monitor is given the sandbox
and nothing else: it locks it, takes the exit channel of whatever VM is there by then,
unlocks it, waits for the exit, locks it again, marks the sandbox stopped and tears its
network down. Starts, restores and stops hold the lock from beginning to end, so a
monitor runs before or after them, and a VM may exit at any time.

A VM that was rolled back leaves a monitor behind which may hold its channel while the
fallback boots another VM. So a monitor acts on the VM that backs the sandbox in the
runs in which no VM is launched while a monitor holds a channel
(`teardown_of_backing_vm`), and not in all of them (`stale_monitor_stops_fallback`).
-/

namespace Kuasar.Monitor

open Tla
open Restore (SandboxStatus)

/-! ## The sandbox and its tasks -/

/-- A monitor marked the sandbox stopped: the VM whose exit it saw, and the VM that backed
the sandbox. -/
structure Teardown where
  exited : ℕ
  backing : Option ℕ
  deriving DecidableEq, Repr

/-- The sandbox behind its lock. VMs are numbered in the order they are launched, and
`exited` tells of each whether its channel has its exit; `waitChan` is the VM whose
channel the sandbox has. `spawned` counts the monitors that have not locked the sandbox
yet. Kept for the proof: what the monitors did. -/
structure Shared where
  locked : Bool
  status : SandboxStatus
  network : Bool
  waitChan : Option ℕ
  exited : List Bool
  spawned : ℕ
  teardowns : List Teardown
  deriving DecidableEq, Repr

/-- The ways to start a sandbox: from a snapshot or cold by the sandboxer, or by one of the
two restores of the service. -/
inductive Start where
  | snapshot
  | coldBoot
  | serviceWarmFork
  | serviceContinuation
  deriving DecidableEq, Repr

/-- A start or a stop that holds the lock, or a monitor that does not. -/
inductive Call where
  | starting (k : Start)
  | prepared (k : Start)
  | launched (k : Start)
  | restored (k : Start)
  | monitored (k : Start)
  | stopping
  | waiting (i : ℕ)
  | exitSeen (i : ℕ)
  deriving DecidableEq, Repr

/-- What a move does that monitors must not collide with: launch a VM. -/
inductive Effect where
  | quiet
  | launches
  deriving DecidableEq, Repr

/-- The service restores sandboxes that were only created. -/
def Start.accepts : Start → SandboxStatus → Prop
  | .snapshot, _ => True
  | .coldBoot, _ => True
  | .serviceWarmFork, status => status = .created
  | .serviceContinuation, status => status = .created

/-- The network after `prepare_network` failed: the cold boot leaves it. -/
def Start.afterPrepareErr (k : Start) (network : Bool) : Bool :=
  match k with
  | .coldBoot => network
  | _ => false

/-- The network after the VM could not be started: the restore of a continuation leaves it
to the operator. -/
def Start.afterVmErr (k : Start) (network : Bool) : Bool :=
  match k with
  | .serviceContinuation => network
  | _ => false

/-- The network after a rollback whose `stop` succeeded or failed. -/
def Start.afterRollback (k : Start) (stopped network : Bool) : Bool :=
  match k with
  | .serviceWarmFork => false
  | _ => if stopped then false else network

/-- The network after `stop`, whose kill succeeded or failed. -/
def afterStop (status : SandboxStatus) (killed network : Bool) : Bool :=
  match status with
  | .stopped => false
  | .paused => network
  | _ => if killed then false else network

/-- One step of a start, of a stop or of a monitor. `stop` and the rollbacks kill the VM
but leave the status: that a VM exits is a step of its own. -/
inductive Move : Effect → Shared → Option Call → Shared → Option Call → Prop where
  -- a start, from the lock to the unlock
  | lockStart {g} (k : Start) (h : g.locked = false) (hk : k.accepts g.status) :
      Move .quiet g none { g with locked := true } (some (.starting k))
  | preStartErr {g k} : Move .quiet g (some (.starting k)) { g with locked := false } none
  | prepareNetwork {g k} (hk : k ≠ .serviceContinuation) :
      Move .quiet g (some (.starting k)) { g with network := true } (some (.prepared k))
  | prepareNetworkErr {g k} (hk : k ≠ .serviceContinuation) :
      Move .quiet g (some (.starting k))
        { g with network := k.afterPrepareErr g.network, locked := false } none
  -- no namespace, or a continuation that brings its own identity
  | noNetwork {g k} : Move .quiet g (some (.starting k)) g (some (.prepared k))
  | launch {g k} :
      Move .launches g (some (.prepared k))
        { g with exited := g.exited ++ [false], waitChan := some g.exited.length }
        (some (.launched k))
  | launchErr {g k} :
      Move .quiet g (some (.prepared k))
        { g with network := k.afterVmErr g.network, locked := false } none
  -- the VM is killed when it cannot be restored or set up
  | vmErr {g k} :
      Move .quiet g (some (.launched k))
        { g with network := k.afterVmErr g.network, locked := false } none
  | vmRuns {g k i} (h : g.waitChan = some i) :
      Move .quiet g (some (.launched k)) { g with status := .running i } (some (.restored k))
  | spawnMonitor {g k} :
      Move .quiet g (some (.restored k)) { g with spawned := g.spawned + 1 } (some (.monitored k))
  | started {g k} : Move .quiet g (some (.monitored k)) { g with locked := false } none
  -- add_to_cgroup, post_start or dump fails
  | rollback {g k} (stopped : Bool) :
      Move .quiet g (some (.monitored k))
        { g with network := k.afterRollback stopped g.network, locked := false } none
  -- a stop
  | lockStop {g} (h : g.locked = false) :
      Move .quiet g none { g with locked := true } (some .stopping)
  | stop {g} (killed : Bool) :
      Move .quiet g (some .stopping)
        { g with network := afterStop g.status killed g.network, locked := false } none
  -- a monitor: it locks, finds a running VM or gives up, and unlocks
  | watch {g n i pid} (h : g.locked = false) (hn : g.spawned = n + 1)
      (hs : g.status = .running pid) (hi : g.waitChan = some i) :
      Move .quiet g none { g with spawned := n } (some (.waiting i))
  | giveUp {g n} (h : g.locked = false) (hn : g.spawned = n + 1)
      (hs : (∀ pid, g.status ≠ .running pid) ∨ g.waitChan = none) :
      Move .quiet g none { g with spawned := n } none
  | seeExit {g i} (h : g.exited[i]? = some true) :
      Move .quiet g (some (.waiting i)) g (some (.exitSeen i))
  -- it locks again and takes the sandbox down
  | tearDown {g i} (h : g.locked = false) :
      Move .quiet g (some (.exitSeen i))
        { g with status := .stopped, network := false, teardowns := ⟨i, g.waitChan⟩ :: g.teardowns }
        none

/-- The sandbox and the calls on it. -/
abbrev St := Sys Shared (Option Call)

/-- Task `k` makes a move, or a VM exits. -/
inductive Label where
  | task (k : ℕ) (e : Effect)
  | exit (i : ℕ)
  deriving DecidableEq, Repr

/-- VM `i` exits, and its channel has it. -/
def Exit (i : ℕ) : Action St := fun s s' =>
  s.shared.exited[i]? = some false ∧
    s' = { s with shared.exited := s.shared.exited.set i true }

/-- The steps. -/
def next : Label → Action St
  | .task k e => TaskStep (Move e) k
  | .exit i => Exit i

def created : Shared := ⟨false, .created, false, none, [], 0, []⟩

/-- A sandbox that was recovered with its VM, and its monitor. -/
def recovered (network : Bool) : Shared := ⟨false, .running 0, network, some 0, [false], 1, []⟩

/-- A sandbox that was created or recovered, and idle tasks. -/
def Init : StatePred St := fun s =>
  (s.shared = created ∨ ∃ network, s.shared = recovered network) ∧ ∀ c ∈ s.tasks, c = none

/-- The VM whose channel a monitor holds. -/
def Call.channel : Call → Option ℕ
  | .waiting i => some i
  | .exitSeen i => some i
  | _ => none

/-- A VM is launched only while no monitor holds the channel of another. -/
def LaunchesUnwatched : Label → StatePred St
  | .task _ .launches, s => ∀ (k : ℕ) (c : Call), s.tasks[k]? = some (some c) → c.channel = none
  | _, _ => True

/-- Every monitor that took the sandbox down had seen the VM exit that backed it. -/
def TeardownOfBacking : StatePred St := fun s =>
  ∀ t ∈ s.shared.teardowns,
    t.backing = some t.exited ∧ s.shared.exited[t.exited]? = some true

/-! ## Monitors hold the channel of the VM that backs the sandbox -/

/-- What the monitors did so far. -/
def SharedInv (g : Shared) : Prop :=
  ∀ t ∈ g.teardowns, t.backing = some t.exited ∧ g.exited[t.exited]? = some true

/-- A monitor's channel is the sandbox's, and an exit it saw is one. -/
def CallInv (g : Shared) : Option Call → Prop
  | some (.waiting i) => g.waitChan = some i
  | some (.exitSeen i) => g.waitChan = some i ∧ g.exited[i]? = some true
  | _ => True

variable {e : Effect} {g g' : Shared} {c c' m : Option Call}

theorem CallInv.of_channel (h : ∀ d, m = some d → d.channel = none) : CallInv g m := by
  unfold CallInv
  split
  · exact absurd (h _ rfl) (by simp [Call.channel])
  · exact absurd (h _ rfl) (by simp [Call.channel])
  · trivial

/-- What a call relies on: the sandbox keeps its channel, and exits are not taken back. -/
theorem CallInv.kept (hm : CallInv g m) (hchan : g'.waitChan = g.waitChan)
    (hexit : ∀ i : ℕ, g.exited[i]? = some true → g'.exited[i]? = some true) : CallInv g' m := by
  unfold CallInv at hm ⊢
  split at hm
  · rw [hchan]
    exact hm
  · rw [hchan]
    exact ⟨hm.1, hexit _ hm.2⟩
  · trivial

theorem Move.exited_mono (h : Move e g c g' c') {i : ℕ} (hi : g.exited[i]? = some true) :
    g'.exited[i]? = some true := by
  cases h with
  | launch =>
    have hlt : i < g.exited.length := (List.getElem?_eq_some_iff.mp hi).1
    rw [List.getElem?_append_left hlt]
    exact hi
  | _ => exact hi

/-- Only a launch gives the sandbox another channel. -/
theorem Move.waitChan_eq (h : Move .quiet g c g' c') : g'.waitChan = g.waitChan := by
  cases h <;> rfl

theorem Move.self (h : Move e g c g' c') (hc : CallInv g c) : CallInv g' c' := by
  cases h with
  | watch _ _ _ hi => exact hi
  | seeExit hexit => exact ⟨hc, hexit⟩
  | _ => trivial

theorem Move.other (h : Move e g c g' c')
    (hok : e = .launches → ∀ d, m = some d → d.channel = none) (hm : CallInv g m) :
    CallInv g' m := by
  cases e with
  | launches => exact CallInv.of_channel (hok rfl)
  | quiet => exact hm.kept h.waitChan_eq fun _ => h.exited_mono

/-- What a monitor records is the VM it saw exit, which its channel says backs the
sandbox. -/
theorem Move.shared (h : Move e g c g' c') (hg : SharedInv g) (hc : CallInv g c) :
    SharedInv g' := by
  have hold : ∀ t ∈ g.teardowns, t.backing = some t.exited ∧ g'.exited[t.exited]? = some true :=
    fun t ht => ⟨(hg t ht).1, h.exited_mono (hg t ht).2⟩
  cases h with
  | tearDown _ =>
    intro t ht
    rcases List.mem_cons.mp ht with rfl | ht
    · exact hc
    · exact hold t ht
  | _ => exact hold

/-- The invariant. -/
def Inv : StatePred St := Outline SharedInv CallInv fun _ _ _ => True

theorem init_inv (s : St) (h : Init s) : Inv s := by
  obtain ⟨hshared, hidle⟩ := h
  refine Outline.of_all hidle ?_ trivial trivial
  have hnone : s.shared.teardowns = [] := by
    rcases hshared with h | ⟨network, h⟩ <;> rw [h] <;> rfl
  intro t ht
  rw [hnone] at ht
  simp at ht

theorem task_inv {k : ℕ} {s s' : St} (hok : LaunchesUnwatched (.task k e) s)
    (h : TaskStep (Move e) k s s') (hs : Inv s) : Inv s' := by
  obtain ⟨c, c', hk, hmove, hset⟩ := h
  refine Outline.step hset (hmove.shared hs.shared (hs.each k c hk)) (hmove.self (hs.each k c hk))
    ?_ (fun _ _ _ _ => ⟨trivial, trivial⟩) (fun _ _ _ _ _ _ _ _ _ => trivial)
  intro j m _ hj
  refine hmove.other ?_ (hs.each j m hj)
  rintro rfl d rfl
  exact hok j d hj

theorem exit_inv {i : ℕ} {s s' : St} (h : Exit i s s') (hs : Inv s) : Inv s' := by
  obtain ⟨-, rfl⟩ := h
  have hmono : ∀ j : ℕ, s.shared.exited[j]? = some true →
      (s.shared.exited.set i true)[j]? = some true := by
    intro j hj
    have hlt : j < s.shared.exited.length := (List.getElem?_eq_some_iff.mp hj).1
    by_cases hij : i = j
    · rw [hij, List.getElem?_set_self hlt]
    · rw [List.getElem?_set_ne hij]
      exact hj
  refine ⟨?_, ?_, fun _ _ _ _ _ _ _ => trivial⟩
  · intro t ht
    exact ⟨(hs.shared t ht).1, hmono _ (hs.shared t ht).2⟩
  · intro k c hk
    exact (hs.each k c hk).kept rfl hmono

theorem step_inv (l : Label) (s s' : St) (hok : LaunchesUnwatched l s) (h : next l s s')
    (hs : Inv s) : Inv s' := by
  cases l with
  | task k e => exact task_inv hok h hs
  | exit i => exact exit_inv h hs

/-- **Teardown.** In every run in which no VM is launched while a monitor holds a channel,
a monitor takes the sandbox down only when the VM exited that backs it. -/
theorem teardown_of_backing_vm (s : St) (h : Reachable Init (Guarded LaunchesUnwatched next) s) :
    TeardownOfBacking s :=
  (h.guarded_invariant init_inv step_inv).shared

/-! ## A monitor of a VM that is gone -/

/-- A recovered sandbox whose VM exited, after its monitor took it down. -/
def recoveredDown : St := ⟨⟨false, .stopped, false, some 0, [true], 0, [⟨0, some 0⟩]⟩, [none]⟩

theorem recoveredDown_reachable :
    Reachable Init (Guarded LaunchesUnwatched next) recoveredDown := by
  have h₀ : Reachable Init (Guarded LaunchesUnwatched next) ⟨recovered true, [none]⟩ :=
    .init ⟨Or.inr ⟨true, rfl⟩, by simp⟩
  have h₁ := h₀.step ⟨.task 0 .quiet, trivial, TaskStep.of_step rfl (.watch rfl rfl rfl rfl)⟩
  have h₂ := h₁.step ⟨.exit 0, trivial, rfl, rfl⟩
  have h₃ := h₂.step ⟨.task 0 .quiet, trivial, TaskStep.of_step rfl (.seeExit rfl)⟩
  exact h₃.step ⟨.task 0 .quiet, trivial, TaskStep.of_step rfl (.tearDown rfl)⟩

theorem teardown_of_backing_vm_recoveredDown :
    recoveredDown.shared.teardowns = [⟨0, some 0⟩] ∧ TeardownOfBacking recoveredDown :=
  ⟨rfl, teardown_of_backing_vm recoveredDown recoveredDown_reachable⟩

/-- The next state of a run in which task `k` moves. -/
theorem reachable_move {s : St} {e : Effect} {g : Shared} {l m : Option Call} (k : ℕ)
    (hr : Reachable Init (AnyStep next) s) (hk : s.tasks[k]? = some l)
    (h : Move e s.shared l g m) : Reachable Init (AnyStep next) ⟨g, s.tasks.set k m⟩ :=
  hr.anyStep (.task k e) (.of_step hk h)

/-- The restored VM 0 is rolled back, the fallback boots VM 1, and the monitor that holds
the channel of VM 0 takes the sandbox down. -/
theorem stale_monitor_stops_fallback :
    ∃ s, Reachable Init (AnyStep next) s ∧ s.shared.status = .stopped ∧
      s.shared.network = false ∧ s.shared.waitChan = some 1 ∧ s.shared.exited = [true, false] ∧
      s.shared.teardowns = [⟨0, some 1⟩] ∧ ¬ TeardownOfBacking s := by
  have h₀ : Reachable Init (AnyStep next) ⟨created, [none, none]⟩ := .init ⟨Or.inl rfl, by simp⟩
  -- the restore gets its VM to run and fails afterwards
  have h₁ := reachable_move 0 h₀ rfl (.lockStart .snapshot rfl trivial)
  have h₂ := reachable_move 0 h₁ rfl (.prepareNetwork (by decide))
  have h₃ := reachable_move 0 h₂ rfl .launch
  have h₄ := reachable_move 0 h₃ rfl (.vmRuns rfl)
  have h₅ := reachable_move 0 h₄ rfl .spawnMonitor
  have h₆ := h₅.anyStep (.exit 0) ⟨rfl, rfl⟩
  have h₇ := reachable_move 0 h₆ rfl (.rollback true)
  -- its monitor finds the sandbox running and the VM gone
  have h₈ := reachable_move 1 h₇ rfl (.watch rfl rfl rfl rfl)
  have h₉ := reachable_move 1 h₈ rfl (.seeExit rfl)
  -- the cold boot has the lock before it
  have h₁₀ := reachable_move 0 h₉ rfl (.lockStart .coldBoot rfl trivial)
  have h₁₁ := reachable_move 0 h₁₀ rfl (.prepareNetwork (by decide))
  have h₁₂ := reachable_move 0 h₁₁ rfl .launch
  have h₁₃ := reachable_move 0 h₁₂ rfl (.vmRuns rfl)
  have h₁₄ := reachable_move 0 h₁₃ rfl .spawnMonitor
  have h₁₅ := reachable_move 0 h₁₄ rfl .started
  have h₁₆ := reachable_move 1 h₁₅ rfl (.tearDown rfl)
  refine ⟨_, h₁₆, rfl, rfl, rfl, rfl, rfl, ?_⟩
  intro hdown
  have hbacking : some 1 = some 0 := (hdown ⟨0, some 1⟩ List.mem_cons_self).1
  simp at hbacking

end Kuasar.Monitor

import Kuasar.Runc.SandboxStart

/-!
# Runc.NamespaceMounts — the namespace mounts of a sandbox and its stop

A start mounts the uts, ipc and net namespaces of the sandbox process, one after the other, unless
the pod shares its pid namespace. `RuncSandbox::stop` unmounts uts and then ipc, if the sandbox is
running without a process.

The net namespace is never unmounted; a start that fails after a mount leaves the status as it was,
so that no stop unmounts anything; and once uts is unmounted a stop that is tried again fails at it.
So all is released exactly where nothing was mounted (`mounts_released_iff`).
-/

namespace Kuasar.Runc

/-- A sandbox: its status, none once it is stopped, and the namespaces that are mounted. -/
structure RuncSandbox where
  status : Option Status
  mounts : List Namespace
  deriving DecidableEq

/-- The namespaces that the effects have mounted: a mount that fails is the last. -/
def made (effects : List Effect) (failed : Option StartError) : List Namespace :=
  effects.filterMap fun
    | .mount ns _ => if failed = some (.mount ns) then none else some ns
    | .kill _ => none

/-- The sandbox after `start`. A failure to dump it comes after its status was set. -/
def afterStart (forked : Except CallError ℤ) (env : Env) : RuncSandbox :=
  match forked with
  | .error _ => ⟨some .created, []⟩
  | .ok pid =>
    match prepareSandboxNs pid env with
    | (effects, .ok status) => ⟨some status, made effects none⟩
    | (effects, .error e) => ⟨some .created, made effects (some e)⟩

/-- `umount`: what is not mounted can not be unmounted, and the kernel may refuse. -/
def umount (refuses : Namespace → Bool) (ns : Namespace) (mounts : List Namespace) :
    Option (List Namespace) :=
  if ns ∈ mounts ∧ refuses ns = false then some (mounts.erase ns) else none

/-- `RuncSandbox::stop`, and whether it succeeds. -/
def RuncSandbox.stop (refuses : Namespace → Bool) (sb : RuncSandbox) : RuncSandbox × Bool :=
  if sb.status = some (.running 0) then
    match umount refuses .uts sb.mounts with
    | none => (sb, false)
    | some mounts =>
      match umount refuses .ipc mounts with
      | none => ({ sb with mounts }, false)
      | some mounts => (⟨none, mounts⟩, true)
  else ({ sb with status := none }, true)

/-- The sandbox after several stops. -/
def RuncSandbox.stops (attempts : List (Namespace → Bool)) (sb : RuncSandbox) : RuncSandbox :=
  attempts.foldl (fun sb refuses => (sb.stop refuses).1) sb

/-- Whatever stops were tried, one that nothing refuses succeeds, and leaves no mount. -/
def RuncSandbox.Released (sb : RuncSandbox) : Prop :=
  ∀ attempts, ((sb.stops attempts).stop fun _ => false).2 = true ∧
    ((sb.stops attempts).stop fun _ => false).1.mounts = []

/-- Nothing was mounted, and if there is a process it has a pid. -/
def NothingMounted (forked : Except CallError ℤ) (env : Env) : Prop :=
  ∀ pid, forked = .ok pid →
    if env.sharedPid then MachineInt.toUnsigned 32 pid ≠ 0
    else env.creates .uts = false ∨ env.mounts .uts = false

/-- Without mounts, and not running without a process, every stop succeeds. -/
theorem RuncSandbox.released_of_idle {sb : RuncSandbox} (hmounts : sb.mounts = [])
    (hstatus : sb.status ≠ some (.running 0)) : sb.Released := by
  intro attempts
  induction attempts generalizing sb with
  | nil =>
    show (sb.stop _).2 = true ∧ (sb.stop _).1.mounts = []
    rw [stop, if_neg hstatus]
    exact ⟨rfl, hmounts⟩
  | cons refuses attempts ih =>
    have hnext : sb.stops (refuses :: attempts) = stops attempts { sb with status := none } := by
      rw [stops, List.foldl_cons, stop, if_neg hstatus]
      rfl
    rw [hnext]
    exact ih hmounts nofun

/-- What a start leaves, by the first namespace that it fails to mount. -/
theorem afterStart_unshared {pid : ℤ} {env : Env} (hshared : env.sharedPid = false) :
    afterStart (.ok pid) env =
      if env.creates .uts = false ∨ env.mounts .uts = false then ⟨some .created, []⟩
      else if env.creates .ipc = false ∨ env.mounts .ipc = false then ⟨some .created, [.uts]⟩
      else if env.creates .net = false ∨ env.mounts .net = false then ⟨some .created, [.uts, .ipc]⟩
      else ⟨some (.running 0), [.uts, .ipc, .net]⟩ := by
  unfold afterStart prepareSandboxNs
  rw [hshared]
  simp only [Bool.false_eq_true, if_false, mountNamespaces]
  cases env.creates .uts <;> cases env.mounts .uts <;> cases env.creates .ipc <;>
    cases env.mounts .ipc <;> cases env.creates .net <;> cases env.mounts .net <;> rfl

theorem afterStart_shared {pid : ℤ} {env : Env} (hshared : env.sharedPid = true) :
    afterStart (.ok pid) env = ⟨some (.running (MachineInt.toUnsigned 32 pid)), []⟩ := by
  unfold afterStart prepareSandboxNs
  rw [hshared]
  rfl

/-- For every sandbox and every way in which its start goes: whatever was mounted is released by
stops, and a stop can be tried again until it succeeds, if and only if nothing was mounted. -/
theorem mounts_released_iff (forked : Except CallError ℤ) (env : Env) :
    (afterStart forked env).Released ↔ NothingMounted forked env := by
  rcases forked with e | pid
  · exact ⟨fun _ _ h => (nomatch h), fun _ => RuncSandbox.released_of_idle rfl nofun⟩
  · cases hshared : env.sharedPid with
    | true =>
      have hiff : NothingMounted (.ok pid) env ↔ MachineInt.toUnsigned 32 pid ≠ 0 := by
        simp [NothingMounted, hshared]
      rw [hiff, afterStart_shared hshared]
      constructor
      · intro hreleased hzero
        have h := (hreleased []).1
        rw [hzero] at h
        exact absurd h (by decide)
      · intro hpid
        refine RuncSandbox.released_of_idle rfl fun h => hpid ?_
        exact Status.running.inj (Option.some.inj h)
    | false =>
      have hiff : NothingMounted (.ok pid) env ↔
          env.creates .uts = false ∨ env.mounts .uts = false := by
        simp [NothingMounted, hshared]
      rw [hiff, afterStart_unshared hshared]
      constructor
      · intro hreleased
        have h := (hreleased []).2
        by_contra hmounted
        rw [if_neg hmounted] at h
        -- a failed start is not undone by a stop, and a stop leaves net
        split at h
        · exact absurd h (by decide)
        · split at h
          · exact absurd h (by decide)
          · exact absurd h (by decide)
      · intro huts
        rw [if_pos huts]
        exact RuncSandbox.released_of_idle rfl nofun

/-- A start that succeeds mounts three namespaces, and a stop that succeeds leaves one of them; and
a stop that fails at ipc fails at uts when it is tried again. -/
theorem net_mount_left :
    let sb := afterStart (.ok 7) ⟨false, fun _ => true, fun _ => true, true⟩
    sb.mounts = [.uts, .ipc, .net] ∧ sb.stop (fun _ => false) = (⟨none, [.net]⟩, true) ∧
      ((sb.stop (· = .ipc)).1.stop fun _ => false).2 = false := by
  decide

end Kuasar.Runc

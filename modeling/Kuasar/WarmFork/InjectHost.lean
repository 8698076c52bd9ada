import Kuasar.Template.Types
import Kuasar.WarmFork.TwoPhase

/-!
# WarmFork.InjectHost — the host's side of an injection

`inject_warm_fork_task` sends the tasks of a WarmFork restore to the guest agent and checks
its answer: as many results as tasks, the same set of containers, and every target started.
The answer is that of the agent's `inject_task` (`WarmFork.Injection`).

The check passes if every target replied `STARTED`; of a request without targets nothing is
asked, and it passes as well.
-/

namespace Kuasar.WarmFork

open Tla ContainerInjectResult

open scoped List

/-! ## The request and its check -/

structure Target extends WarmForkTarget where
  envOverrides : List (String × String) := []
  context : String := ""
  deriving DecidableEq, Repr

/-- The parameters of a WarmFork restore. Without a task the workloads start themselves. -/
structure WarmForkParams where
  taskId : Option String
  targets : List Target
  prepareTimeoutMs : ℕ := 10000
  commitTimeoutMs : ℕ := 5000
  deriving DecidableEq, Repr

def WarmForkParams.tasks (params : WarmForkParams) : List ContainerTask :=
  params.targets.map fun t =>
    { containerId := t.containerId
      socketPath := t.socketPath
      taskId := params.taskId.getD ""
      envOverrides := t.envOverrides
      context := t.context }

inductive InjectError where
  | noClient
  | rpc (e : String)
  | countMismatch (sent got : ℕ)
  | containerSetMismatch (sent got : List String)
  | targetsFailed (results : List ContainerInjectResult)
  deriving DecidableEq, Repr

def sameSet (xs ys : List String) : Bool := xs.all (ys.contains ·) && ys.all (xs.contains ·)

/-- `inject_warm_fork_task`: `client` is the connection to the agent, if there is one, and
answers the call. On success it yields the number of targets that started. -/
def injectWarmForkTask (params : WarmForkParams)
    (client : Option (List ContainerTask → Except String (List ContainerInjectResult))) :
    Except InjectError ℕ :=
  let tasks := params.tasks
  match client with
  | none => .error .noClient
  | some call =>
    match call tasks with
    | .error e => .error (.rpc e)
    | .ok results =>
      let requested := tasks.map ContainerTask.containerId
      let got := results.map ContainerInjectResult.containerId
      let errors := results.filter fun r => r.status ≠ .started
      if results.length ≠ tasks.length then .error (.countMismatch tasks.length results.length)
      else if !sameSet got requested then .error (.containerSetMismatch requested got)
      else if errors ≠ [] then .error (.targetsFailed errors)
      else .ok (results.filter fun r => r.status = .started).length

/-! ## The results of the agent -/

/-- In the second phase a target replied `STARTED` if and only if its future says so. -/
theorem commitTrail_started_iff {pc : Pc} {l : List Event} (h : CommitTrail pc l) :
    [Event.sent .commit, .received .started] <+ l ↔ pc = .started := by
  cases pc with
  | sendCommit | awaitStarted | started =>
    obtain ⟨w, p, rfl⟩ := h
    simp [List.sublist_cons_iff]
  | failed r => simp [h.2]
  | connect | capabilities | sendPrepare | reply | ready => exact h.elim

/-- So it is without a first phase. -/
theorem autonomousTrail_started_iff {pc : Pc} {l : List Event} (h : AutonomousTrail pc l) :
    [Event.sent .commit, .received .started] <+ l ↔ pc = .started := by
  cases pc with
  | connect | capabilities =>
    have h : l = [] := h
    simp [h]
  | sendCommit | awaitStarted =>
    obtain ⟨w, rfl⟩ := h
    simp [List.sublist_cons_iff]
  | started =>
    obtain ⟨w, rfl⟩ := h
    simp
  | failed r =>
    have h : ¬ [Event.sent .commit, .received .started] <+ l := h
    simp [h]
  | sendPrepare | reply | ready => exact h.elim

variable {tasks : List ContainerTask} {s : Inject} {i : ℕ} {c : Conn} {conns : List Conn}
  {rs : List ContainerInjectResult}

/-- After `COMMIT`, target `i` replied `STARTED` if and only if its future says so. -/
theorem Inv.repliedStarted_iff (hinv : Inv tasks s)
    (hphase : s.phase = .autonomous ∨ s.phase = .committing) (hc : s.conns[i]? = some c) :
    RepliedStarted s.trace i ↔ c.pc = .started := by
  have htrails := hinv.trails
  unfold Trails at htrails
  rcases hphase with hphase | hphase <;> rw [hphase] at htrails
  · exact autonomousTrail_started_iff (htrails i c hc)
  · exact commitTrail_started_iff (htrails i c hc)

/-- Without a `COMMIT` there is no `STARTED`. -/
theorem not_repliedStarted {tr : List (ℕ × Event)} (h : (i, .sent .commit) ∉ tr) :
    ¬ RepliedStarted tr i := by
  intro hsub
  have hmem : Event.sent .commit ∈ logOf tr i := hsub.subset List.mem_cons_self
  exact h (mem_of_mem_logOf hmem)

section

variable {conns : List Conn}
  (honest : ∀ c ∈ conns, ∀ r, c.pc = .failed r →
    r.containerId = c.task.containerId ∧ r.status ≠ .started)

include honest

theorem containerId_commitResults :
    (commitResults conns).map containerId =
      (conns.map Conn.task).map ContainerTask.containerId := by
  rw [commitResults, List.map_map, List.map_map]
  apply List.map_congr_left
  intro c hc
  cases hpc : c.pc with
  | failed r => simpa [hpc] using (honest c hc r hpc).1
  | _ => simp [hpc, Conn.result]

/-- The results of a failed first phase are those of its targets. -/
theorem containerId_rollbackResults (hcases : ∀ c ∈ conns, c.pc = .ready ∨ ∃ r, c.pc = .failed r) :
    (failedResults conns ++ cancelledResults conns).map containerId ~
      (conns.map Conn.task).map ContainerTask.containerId := by
  induction conns with
  | nil => exact List.Perm.refl _
  | cons c conns ih =>
    have ih := ih (fun d hd => honest d (List.mem_cons_of_mem c hd))
      (fun d hd => hcases d (List.mem_cons_of_mem c hd))
    rw [List.map_append] at ih ⊢
    rcases hcases c List.mem_cons_self with hready | ⟨r, hr⟩
    · -- ready: its result comes after all failures
      have hfailed : failedResults (c :: conns) = failedResults conns := by
        simp [failedResults, hready]
      have hcancelled : (cancelledResults (c :: conns)).map containerId =
          c.task.containerId :: (cancelledResults conns).map containerId := by
        simp [cancelledResults, hready, Conn.result]
      rw [hfailed, hcancelled, List.map_cons, List.map_cons]
      exact List.perm_middle.trans (ih.cons _)
    · have hfailed : (failedResults (c :: conns)).map containerId =
          c.task.containerId :: (failedResults conns).map containerId := by
        simp [failedResults, hr, (honest c List.mem_cons_self r hr).1]
      have hcancelled : cancelledResults (c :: conns) = cancelledResults conns := by
        simp [cancelledResults, hr]
      rw [hfailed, hcancelled, List.map_cons, List.map_cons, List.cons_append]
      exact ih.cons _

end

/-- What a request returns: one result for each target, and all say `started` if and only if
every target replied so. -/
def Returned (tasks : List ContainerTask) (s : Inject) : Prop :=
  ∀ rs, s.phase = .returned rs →
    rs.map ContainerInjectResult.containerId ~ tasks.map ContainerTask.containerId ∧
      ((∀ r ∈ rs, r.status = .started) ↔ ∀ i < tasks.length, RepliedStarted s.trace i)

/-- A connection is that of a target. -/
theorem Inv.index (hinv : Inv tasks s) (hc : c ∈ s.conns) :
    ∃ i < tasks.length, s.conns[i]? = some c := by
  obtain ⟨i, hi⟩ := List.mem_iff_getElem?.mp hc
  refine ⟨i, ?_, hi⟩
  rw [← hinv.targets, List.length_map]
  exact (List.getElem?_eq_some_iff.mp hi).1

/-- The futures are done and the second phase is over. -/
theorem commitResults_started (hinv : Inv tasks s)
    (hphase : s.phase = .autonomous ∨ s.phase = .committing)
    (hres : ∀ c ∈ s.conns, c.resolved = true) :
    (∀ r ∈ commitResults s.conns, r.status = .started) ↔
      ∀ i < tasks.length, RepliedStarted s.trace i := by
  constructor
  · intro hall i hi
    obtain ⟨c, hc, -⟩ := hinv.conn hi
    have hmem := List.mem_of_getElem? hc
    rw [hinv.repliedStarted_iff hphase hc]
    have hresolved := hres c hmem
    unfold Conn.resolved at hresolved
    split at hresolved
    · -- no future stops at `ready` after the first phase
      rename_i hpc
      have htrails := hinv.trails
      unfold Trails at htrails
      rcases hphase with hphase | hphase <;> rw [hphase] at htrails <;>
        have := htrails i c hc <;> rw [hpc] at this <;> exact this.elim
    · assumption
    · rename_i r hr
      have hmemr : r ∈ commitResults s.conns := List.mem_map.mpr ⟨c, hmem, by simp [hr]⟩
      exact absurd (hall r hmemr) (hinv.honest c hmem r hr).2
    · cases hresolved
  · intro hall r hr
    obtain ⟨c, hmem, rfl⟩ := List.mem_map.mp hr
    obtain ⟨i, hlt, hi⟩ := hinv.index hmem
    have hpc := (hinv.repliedStarted_iff hphase hi).mp (hall i hlt)
    simp [hpc, Conn.result]

theorem timeoutResults_cases {phase : Phase} (h : phase.timeoutResults conns = some rs) :
    rs.map containerId =
        (conns.map Conn.task).map ContainerTask.containerId ∧
      (∀ r ∈ rs, r.status ≠ .started) := by
  cases phase with
  | returned rs' => cases h
  | autonomous | preparing | committing =>
    cases h
    simp [timeoutResults, Conn.result, Function.comp_def]

/-- The first phase is over: a request that returns here says that not all are started. -/
theorem endPrepare_returned (hinv : Inv tasks s) (hphase : s.phase = .preparing)
    (hres : ∀ c ∈ s.conns, c.resolved = true) : Returned tasks s.endPrepare := by
  have htrails := hinv.trails
  have hquiet := hinv.quiet
  unfold Trails at htrails
  unfold Quiet at hquiet
  rw [hphase] at htrails hquiet
  intro rs hret
  by_cases hfailed : failedResults s.conns = []
  · rw [endPrepare_committing hfailed] at hret
    cases hret
  · rw [endPrepare_cancelling hfailed] at hret ⊢
    cases hret
    have hcases : ∀ c ∈ s.conns, c.pc = .ready ∨ ∃ r, c.pc = .failed r := by
      intro c hc
      obtain ⟨i, -, hi⟩ := hinv.index hc
      exact prepared_cases (hres c hc) (htrails i c hi)
    obtain ⟨r, hr⟩ := List.exists_mem_of_ne_nil _ hfailed
    obtain ⟨c, hc, hcr⟩ := List.mem_filterMap.mp hr
    have hpc : c.pc = .failed r := by
      rcases hcases c hc with hready | ⟨r', hr'⟩
      · simp [hready] at hcr
      · simp only [hr', Option.some.injEq] at hcr
        rw [hr', hcr]
    refine ⟨hinv.targets ▸ containerId_rollbackResults hinv.honest hcases, ?_⟩
    -- neither side holds: a target failed, and nothing was committed
    constructor
    · intro hall
      exact absurd (hall r (List.mem_append_left _ hr)) (hinv.honest c hc r hpc).2
    · intro hall
      obtain ⟨i, hlt, -⟩ := hinv.index hc
      refine absurd (hall i hlt) (not_repliedStarted ?_)
      intro hmem
      rcases List.mem_append.mp hmem with hmem | hmem
      · exact (hquiet i).1 hmem
      · exact commit_notMem_cancels s.conns i hmem

/-- A future that is not done has not got the reply. -/
theorem not_repliedStarted_of_unresolved (hinv : Inv tasks s)
    (hrs : s.phase.timeoutResults s.conns = some rs) (hi : s.conns[i]? = some c)
    (hunres : c.resolved = false) : ¬ RepliedStarted s.trace i := by
  intro hstarted
  have hquiet := hinv.quiet
  unfold Quiet at hquiet
  rcases hphase : s.phase with _ | _ | _ | rs''
  · have := (hinv.repliedStarted_iff (.inl hphase) hi).mp hstarted
    simp [Conn.resolved, this] at hunres
  · rw [hphase] at hquiet
    exact not_repliedStarted (hquiet i).1 hstarted
  · have := (hinv.repliedStarted_iff (.inr hphase) hi).mp hstarted
    simp [Conn.resolved, this] at hunres
  · rw [hphase] at hrs
    cases hrs

theorem step_returned {l : Label} {s' : Inject} (h : next l s s') (hinv : Inv tasks s) :
    Returned tasks s' := by
  intro rs hret
  cases l with
  | answer i a =>
    obtain ⟨c, pc, -, hpc, rfl⟩ := answer_cases h
    rw [hret] at hpc
    cases hpc
  | finish =>
    obtain ⟨hres, ⟨hphase, rfl⟩ | ⟨hphase, rfl⟩⟩ := finish_cases h
    · exact endPrepare_returned hinv hphase hres rs hret
    · cases hret
      refine ⟨?_, commitResults_started hinv hphase hres⟩
      rw [containerId_commitResults hinv.honest, hinv.targets]
  | timeout =>
    obtain ⟨⟨c, hc, hunres⟩, rs', hrs, rfl⟩ := timeout_cases h
    cases hret
    obtain ⟨hids, hstatus⟩ := timeoutResults_cases hrs
    refine ⟨by rw [hids, hinv.targets], ?_⟩
    obtain ⟨i, hlt, hi⟩ := hinv.index hc
    -- neither side holds: the results are timeouts, and a future was not done
    constructor
    · intro hall
      have hlen := congrArg List.length hids
      rw [hinv.targets, List.length_map, List.length_map] at hlen
      obtain ⟨r, hr⟩ := List.exists_mem_of_length_pos (show 0 < rs.length by omega)
      exact absurd (hall r hr) (hstatus r hr)
    · intro hall
      have hnot := not_repliedStarted_of_unresolved hinv hrs hi hunres
      exact absurd (hall i hlt) hnot

/-! ## The host's verdict -/

theorem sameSet_of_perm {xs ys : List String} (h : xs ~ ys) : sameSet xs ys = true := by
  simp only [sameSet, Bool.and_eq_true, List.all_eq_true, List.contains_eq_mem, decide_eq_true_eq]
  exact ⟨fun x hx => h.mem_iff.mp hx, fun y hy => h.mem_iff.mpr hy⟩

/-- Of an answer with one result for each task, the host asks that all targets started. -/
theorem injectWarmForkTask_ok_iff {params : WarmForkParams} {rs : List ContainerInjectResult}
    (hperm : rs.map containerId ~
      params.tasks.map ContainerTask.containerId) :
    (∃ n, injectWarmForkTask params (some fun _ => .ok rs) = .ok n) ↔
      ∀ r ∈ rs, r.status = .started := by
  have hlen : rs.length = params.tasks.length := by simpa using hperm.length_eq
  have hset := sameSet_of_perm hperm
  simp only [injectWarmForkTask, hlen, ne_eq, not_true_eq_false, if_false, hset, Bool.not_true,
    Bool.false_eq_true]
  by_cases herr : rs.filter (fun r => r.status ≠ .started) = []
  · rw [if_neg (by simpa using herr)]
    simpa using herr
  · rw [if_pos (by simpa using herr)]
    simpa using herr

/-- However the targets reply: what the agent returns is one result for each target, and the
host accepts it exactly when there are targets and each of them replied `STARTED`, if and
only if there are targets. -/
theorem inject_succeeds_iff {params : WarmForkParams} {s : Inject}
    (h : Reachable (Init params.tasks) (AnyStep next) s)
    {rs : List ContainerInjectResult} (hret : s.phase = .returned rs) :
    (((∃ n, injectWarmForkTask params (some fun _ => .ok rs) = .ok n) ↔
        params.targets ≠ [] ∧ ∀ i < params.targets.length, RepliedStarted s.trace i) ∧
      rs.map containerId ~ params.targets.map (·.containerId)) ↔
    params.targets ≠ [] := by
  have hinv : Inv params.tasks s ∧ Returned params.tasks s := by
    refine @Reachable.invariant _ _ (fun s => Inv params.tasks s ∧ Returned params.tasks s) _ s
      ?_ ?_ h
    · intro s hinit
      refine ⟨init_inv hinit, ?_⟩
      cases hinit
      intro rs hret
      simp only [start] at hret
      split at hret <;> cases hret
    · rintro s s' ⟨l, hl⟩ ⟨hinv, -⟩
      exact ⟨step_inv hl hinv, step_returned hl hinv⟩
  obtain ⟨hperm, hstarted⟩ := hinv.2 rs hret
  have hids : params.tasks.map ContainerTask.containerId = params.targets.map (·.containerId) := by
    simp [WarmForkParams.tasks, Function.comp_def]
  have hlen : params.tasks.length = params.targets.length := by simp [WarmForkParams.tasks]
  rw [injectWarmForkTask_ok_iff hperm, hstarted, hlen, ← hids]
  constructor
  · rintro ⟨hok, -⟩ hnil
    -- nothing is asked of no targets
    have hall : ∀ i < params.targets.length, RepliedStarted s.trace i := by
      intro i hi
      rw [hnil] at hi
      cases hi
    exact (hok.mp hall).1 hnil
  · intro hne
    refine ⟨?_, hperm⟩
    constructor
    · intro hall
      exact ⟨hne, hall⟩
    · intro hall
      exact hall.2

def oneTarget : WarmForkParams where
  taskId := none
  targets := [{ containerName := "", containerId := "a", socketPath := "" }]

/-- The target starts, and the host accepts. -/
theorem inject_succeeds_oneTarget :
    ∃ s rs, Reachable (Init oneTarget.tasks) (AnyStep next) s ∧
      s.phase = .returned rs ∧
      ((∃ n, injectWarmForkTask oneTarget (some fun _ => .ok rs) = .ok n) ↔
        oneTarget.targets ≠ [] ∧ ∀ i < oneTarget.targets.length, RepliedStarted s.trace i) := by
  have hr : ∃ s rs, Reachable (Init oneTarget.tasks) (AnyStep next) s ∧
      s.phase = .returned rs :=
    ⟨_, _, Reachable.replay rfl (show replay step
      [.answer 0 .connected, .answer 0 (.message (.capabilities ⟨protocolVersion, []⟩)),
        .answer 0 .written, .answer 0 (.message .started), .finish] (start oneTarget.tasks) = _
      from rfl), rfl⟩
  obtain ⟨s, rs, hr, hret⟩ := hr
  exact ⟨s, rs, hr, hret, ((inject_succeeds_iff hr hret).mpr (by decide)).1⟩

/-- A template that recorded no targets: the agent returns no results, and the host accepts
an injection that started nothing. -/
theorem inject_succeeds_without_targets :
    ∃ s, Reachable (Init (WarmForkParams.mk none [] 10000 5000).tasks) (AnyStep next) s ∧
      s.phase = .returned [] ∧
      injectWarmForkTask ⟨none, [], 10000, 5000⟩ (some fun _ => .ok []) = .ok 0 := by
  refine ⟨_, Reachable.replay rfl (show replay step [.finish] (start []) = _
    from rfl), rfl, ?_⟩
  decide

end Kuasar.WarmFork

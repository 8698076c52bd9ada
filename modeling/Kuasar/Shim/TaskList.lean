import Kuasar.Tla.Tasks
import Kuasar.Shim.Data

/-!
# Shim.TaskList — the task list that the sandboxer is sent

Each call that prepares a container, prepares an exec process or purges one of them reads the task
list, changes its copy, sends the copy to the sandboxer and then changes the record. The list is
read and sent under two locks with a remote call behind them, so calls interleave between these
steps.

What was sent is never stored: the extension from which the list is read stays as it was when the
sandbox was created. So every call starts from the empty list, and what it sends is right only if
there is nothing else to list (`Alone`).
-/

namespace Kuasar.Shim

open Tla

inductive Call (τ : Type) where
  | prepareContainer (io : τ) (req : CreateTaskRequest)
  | prepareExec (io : τ) (req : ExecProcessRequest)
  | purge (containerId execId : String)

section Calls

variable {τ : Type}

def newTask (req : CreateTaskRequest) : TaskResource where
  taskId := req.id
  spec := req.spec
  rootfs := req.rootfs
  stdin := req.stdin
  stdout := req.stdout
  stderr := req.stderr

def newProcess [ContainerIoTransport τ] (io : τ) (req : ExecProcessRequest) : ProcessResource where
  execId := req.execId
  spec := req.spec
  stdin := ContainerIoTransport.containerIn io
  stdout := ContainerIoTransport.containerOut io
  stderr := ContainerIoTransport.containerErr io

/-- `get_tasks_extension`. -/
def getTasksExtension (d : SandboxData τ) : List TaskResource := d.tasks.getD []

def Call.edit [ContainerIoTransport τ] : Call τ → List TaskResource → List TaskResource
  | .prepareContainer _ req, tasks => tasks ++ [newTask req]
  | .prepareExec io req, tasks => tasks.map fun t =>
      if t.taskId = req.id then { t with processes := t.processes ++ [newProcess io req] } else t
  | .purge containerId execId, tasks => tasks.filterMap fun t =>
      if t.taskId = containerId then
        if execId.isEmpty then none
        else some { t with processes := t.processes.filter (·.execId ≠ execId) }
      else some t

/-- What a call makes of the record; it fails if its container is not there. -/
def Call.record : Call τ → SandboxData τ → Option (SandboxData τ)
  | .prepareContainer io req, d => some (d.addContainerData { id := req.id, io := io })
  | .prepareExec io req, d => d.changeContainerData req.id (.addProcessData ⟨req.execId, io⟩)
  | .purge containerId execId, d =>
    if execId.isEmpty then some (d.deleteContainerData containerId)
    else d.changeContainerData containerId (.deleteProcessData execId)

/-- Nothing is live but what the call is about. -/
def Call.Concerns (d : SandboxData τ) : Call τ → Prop
  | .prepareContainer _ _ => d.containers = []
  | .prepareExec _ _ => False
  | .purge containerId execId => execId.isEmpty = true ∧ ∀ x ∈ d.containers, x.id = containerId

/-- A record that only lost containers concerns the same purges. -/
theorem Call.record_concerns {c c' : Call τ} {d d' : SandboxData τ} (hconc : c.Concerns d)
    (hnot : ∀ io req, c ≠ .prepareContainer io req) (h : c.record d = some d')
    (hconc' : c'.Concerns d) : c'.Concerns d' := by
  cases c with
  | prepareContainer io req => exact absurd rfl (hnot io req)
  | prepareExec io req => exact hconc.elim
  | purge containerId execId =>
    rw [Call.record, if_pos hconc.1] at h
    obtain rfl : d.deleteContainerData containerId = d' := Option.some.inj h
    have hsub : ∀ x ∈ (d.deleteContainerData containerId).containers, x ∈ d.containers :=
      fun x hx => (List.mem_filter.mp hx).1
    cases c' with
    | prepareContainer io req =>
      refine List.eq_nil_iff_forall_not_mem.mpr fun x hx => ?_
      have hnil : d.containers = [] := hconc'
      exact List.not_mem_nil (hnil ▸ hsub x hx)
    | prepareExec io req => exact hconc'.elim
    | purge containerId' execId' => exact ⟨hconc'.1, fun x hx => hconc'.2 x (hsub x hx)⟩

end Calls

/-- What the calls share: the record, and the list of the last update that was sent. -/
structure Shared (τ : Type) where
  data : SandboxData τ
  sent : Option (List TaskResource)

/-- Where a call stands: before it reads the list, before it sends its copy, and before it changes
the record. -/
inductive Pc (τ : Type) where
  | idle
  | called (c : Call τ)
  | built (c : Call τ) (tasks : List TaskResource)
  | sent (c : Call τ)

inductive Effect (τ : Type) where
  | quiet
  | begins (c : Call τ)

section Steps

variable {τ : Type} [ContainerIoTransport τ]

inductive Step : Effect τ → Shared τ → Pc τ → Shared τ → Pc τ → Prop where
  | call {s} (c : Call τ) : Step (.begins c) s .idle s (.called c)
  | read {s c} : Step .quiet s (.called c) s (.built c (c.edit (getTasksExtension s.data)))
  | send {s c tasks} : Step .quiet s (.built c tasks) { s with sent := some tasks } (.sent c)
  | record {s c d} (h : c.record s.data = some d) :
      Step .quiet s (.sent c) { s with data := d } .idle

abbrev St (τ : Type) := Sys (Shared τ) (Pc τ)

/-- Task `l.1` takes a step. -/
def next (l : ℕ × Effect τ) : Action (St τ) := TaskStep (Step l.2) l.1

/-- A new sandbox. -/
def Init : StatePred (St τ) := fun s =>
  s.shared = ⟨{}, none⟩ ∧ ∀ pc ∈ s.tasks, pc = .idle

/-- One task for each container of the record, with its processes. -/
def Matches (tasks : List TaskResource) (containers : List (ContainerData τ)) : Prop :=
  (tasks.map fun t => (t.taskId, t.processes.map (·.execId))).Perm
    (containers.map fun c => (c.id, c.processes.map (·.id)))

/-- When no call is under way, the last update lists what is live. -/
def UpToDate (s : St τ) : Prop :=
  (∀ pc ∈ s.tasks, pc = .idle) →
    ∀ tasks, s.shared.sent = some tasks → Matches tasks s.shared.data.containers

def Pc.Preparing : Pc τ → Prop
  | .called (.prepareContainer _ _) | .built (.prepareContainer _ _) _
  | .sent (.prepareContainer _ _) => True
  | _ => False

/-- A container is prepared when none is live and no call is under way, and purged when no other is
live and none is being prepared; there are no exec processes. -/
def Alone (l : ℕ × Effect τ) (s : St τ) : Prop :=
  match l.2 with
  | .quiet => True
  | .begins (.prepareContainer _ _) =>
    s.shared.data.containers = [] ∧ ∀ pc ∈ s.tasks, pc = .idle
  | .begins (.prepareExec _ _) => False
  | .begins (.purge containerId execId) =>
    execId.isEmpty = true ∧ (∀ x ∈ s.shared.data.containers, x.id = containerId) ∧
      ∀ pc ∈ s.tasks, ¬ pc.Preparing

/-! ## The invariant -/

/-- What holds of one task: its list is made from the empty one, and once it is sent it is the
last that was. -/
def Local (g : Shared τ) : Pc τ → Prop
  | .idle => True
  | .called c => c.Concerns g.data
  | .built c tasks => c.Concerns g.data ∧ tasks = c.edit []
  | .sent c => c.Concerns g.data ∧ g.sent = some (c.edit [])

/-- A container that is being prepared is alone. -/
def Apart (pc pc' : Pc τ) : Prop := pc.Preparing → pc' = .idle

/-- The last list that was sent is right, or a call is about to change the record. -/
def Settled (s : St τ) : Prop :=
  (∀ tasks, s.shared.sent = some tasks → Matches tasks s.shared.data.containers) ∨
    ∃ c, .sent c ∈ s.tasks

structure Inv (s : St τ) : Prop where
  outline : Outline (fun g => g.data.tasks = none) Local (fun _ => Apart) s
  settled : Settled s

variable {s s' : St τ} {i : ℕ} {c : Call τ}

theorem init_inv (h : Init s) : Inv s := by
  obtain ⟨hshared, hidle⟩ := h
  refine ⟨⟨by rw [hshared], ?_, ?_⟩, ?_⟩
  · intro i pc hpc
    rw [hidle pc (List.mem_of_getElem? hpc)]
    trivial
  · intro i j pc pc' _ _ hpc' _
    exact hidle pc' (List.mem_of_getElem? hpc')
  · refine .inl ?_
    rw [hshared]
    intro tasks h
    cases h

/-- A step of task `i` that is not seen by the others. -/
theorem quiet_inv {pc pc' : Pc τ} (hi : s.tasks[i]? = some pc) (hshared : s'.shared = s.shared)
    (htasks : s'.tasks = s.tasks.set i pc') (hnot : ∀ c, pc ≠ .sent c)
    (hself : Local s.shared pc')
    (hpair : ∀ m ∈ s.tasks, (Apart pc m ∧ Apart m pc → Apart pc' m ∧ Apart m pc')) (hinv : Inv s) :
    Inv s' := by
  obtain ⟨hout, hset⟩ := hinv
  constructor
  · refine Outline.step htasks (by rw [hshared]; exact hout.shared) ?_ ?_ ?_ ?_
    · rw [hshared]
      exact hself
    · intro j m _ hj
      rw [hshared]
      exact hout.each j m hj
    · intro j m hji hj
      exact hpair m (List.mem_of_getElem? hj)
        ⟨hout.apart i j pc m hji.symm hi hj, hout.apart j i m pc hji hj hi⟩
    · intro j k m n hjk _ _ hj hk
      exact hout.apart j k m n hjk hj hk
  · unfold Settled at hset ⊢
    rw [hshared, htasks]
    refine hset.imp id ?_
    rintro ⟨c, hc⟩
    exact ⟨c, mem_set_of_ne _ hi hc (hnot c).symm⟩

theorem call_inv (hok : Alone (i, .begins c) s) (hi : s.tasks[i]? = some .idle)
    (hshared : s'.shared = s.shared) (htasks : s'.tasks = s.tasks.set i (.called c))
    (hinv : Inv s) : Inv s' := by
  refine quiet_inv hi hshared htasks (by simp) ?_ ?_ hinv
  · cases c with
    | prepareContainer io req => exact hok.1
    | prepareExec io req => exact hok.elim
    | purge containerId execId => exact ⟨hok.1, hok.2.1⟩
  · intro m hm _
    cases c with
    | prepareContainer io req =>
      have hidle := hok.2 m hm
      refine ⟨fun _ => hidle, ?_⟩
      rw [hidle]
      exact fun h => h.elim
    | prepareExec io req => exact hok.elim
    | purge containerId execId => exact ⟨fun h => h.elim, fun h => (hok.2.2 m hm h).elim⟩

theorem read_inv (hi : s.tasks[i]? = some (.called c)) (hshared : s'.shared = s.shared)
    (htasks : s'.tasks = s.tasks.set i (.built c (c.edit (getTasksExtension s.shared.data))))
    (hinv : Inv s) : Inv s' := by
  have hext : getTasksExtension s.shared.data = [] := by
    unfold getTasksExtension
    rw [hinv.outline.shared]
    rfl
  rw [hext] at htasks
  refine quiet_inv hi hshared htasks (by simp) ⟨hinv.outline.each i _ hi, rfl⟩ ?_ hinv
  intro m _ h
  cases c with
  | prepareContainer io req =>
    refine ⟨h.1, fun hm => ?_⟩
    cases h.2 hm
  | prepareExec io req | purge containerId execId =>
    exact ⟨fun hf => hf.elim, fun hm => by cases h.2 hm⟩

/-- What a call sends when it started from the empty list. -/
theorem Call.edit_nil_of_not_preparing {g : Shared τ} (h : c.Concerns g.data)
    (hnot : ∀ io req, c ≠ .prepareContainer io req) : c.edit [] = [] := by
  cases c with
  | prepareContainer io req => exact absurd rfl (hnot io req)
  | prepareExec io req => exact h.elim
  | purge containerId execId => rfl

theorem send_inv {tasks : List TaskResource} (hi : s.tasks[i]? = some (.built c tasks))
    (hshared : s'.shared = { s.shared with sent := some tasks })
    (htasks : s'.tasks = s.tasks.set i (.sent c)) (hinv : Inv s) : Inv s' := by
  obtain ⟨hout, -⟩ := hinv
  obtain ⟨hconc, rfl⟩ : c.Concerns s.shared.data ∧ tasks = c.edit [] := hout.each i _ hi
  constructor
  · refine Outline.step htasks (by rw [hshared]; exact hout.shared) ?_ ?_ ?_ ?_
    · rw [hshared]
      exact ⟨hconc, rfl⟩
    · intro j m hji hj
      rw [hshared]
      have hm := hout.each j m hj
      cases m with
      | idle => trivial
      | called c' => exact hm
      | built c' tasks => exact hm
      | sent c' =>
        -- neither of two calls under way prepares a container, so both send the empty list
        refine ⟨hm.1, ?_⟩
        rw [Call.edit_nil_of_not_preparing hconc, Call.edit_nil_of_not_preparing hm.1]
        · rintro io req rfl
          cases hout.apart j i _ _ hji hj hi trivial
        · rintro io req rfl
          cases hout.apart i j _ _ hji.symm hi hj trivial
    · intro j m hji hj
      have hij := hout.apart i j _ m hji.symm hi hj
      have hjm := hout.apart j i m _ hji hj hi
      refine ⟨?_, fun hm => by cases hjm hm⟩
      cases c with
      | prepareContainer io req => exact hij
      | prepareExec io req | purge containerId execId => exact fun hf => hf.elim
    · intro j k m n hjk _ _ hj hk
      exact hout.apart j k m n hjk hj hk
  · refine .inr ⟨c, ?_⟩
    rw [htasks]
    exact mem_set_self _ hi

/-- Where a call concerns all that is live, the list it sends is the record it leaves. -/
theorem Call.matches_record {d d' : SandboxData τ} (hconc : c.Concerns d)
    (h : c.record d = some d') : d'.tasks = d.tasks ∧ Matches (c.edit []) d'.containers := by
  cases c with
  | prepareContainer io req =>
    obtain rfl : d.addContainerData { id := req.id, io := io } = d' := Option.some.inj h
    have hnil : d.containers = [] := hconc
    refine ⟨rfl, ?_⟩
    unfold SandboxData.addContainerData
    rw [hnil]
    exact List.Perm.refl _
  | prepareExec io req => exact hconc.elim
  | purge containerId execId =>
    obtain ⟨hexec, hall⟩ := hconc
    rw [Call.record, if_pos hexec] at h
    obtain rfl : d.deleteContainerData containerId = d' := Option.some.inj h
    refine ⟨rfl, ?_⟩
    have hnil : (d.deleteContainerData containerId).containers = [] := by
      refine List.filter_eq_nil_iff.mpr ?_
      intro x hx
      simp [hall x hx]
    rw [hnil]
    exact List.Perm.refl _

theorem record_inv {d : SandboxData τ} (hi : s.tasks[i]? = some (.sent c))
    (h : c.record s.shared.data = some d) (hshared : s'.shared = { s.shared with data := d })
    (htasks : s'.tasks = s.tasks.set i .idle) (hinv : Inv s) : Inv s' := by
  obtain ⟨hout, -⟩ := hinv
  obtain ⟨hconc, hsent⟩ : c.Concerns s.shared.data ∧ s.shared.sent = some (c.edit []) :=
    hout.each i _ hi
  obtain ⟨htask, hmatch⟩ := Call.matches_record hconc h
  constructor
  · refine Outline.step htasks ?_ trivial ?_ ?_ ?_
    · rw [hshared]
      exact htask.trans hout.shared
    · intro j m hji hj
      rw [hshared]
      have hm := hout.each j m hj
      have keep : ∀ c' : Call τ, m ≠ .idle → c'.Concerns s.shared.data → c'.Concerns d := by
        intro c' hne
        refine Call.record_concerns hconc ?_ h
        rintro io req rfl
        exact hne (hout.apart i j _ m hji.symm hi hj trivial)
      cases m with
      | idle => trivial
      | called c' => exact keep c' (by simp) hm
      | built c' tasks | sent c' => exact ⟨keep c' (by simp) hm.1, hm.2⟩
    · intro j m _ _
      exact ⟨fun hf => hf.elim, fun _ => rfl⟩
    · intro j k m n hjk _ _ hj hk
      exact hout.apart j k m n hjk hj hk
  · refine .inl ?_
    intro tasks htasks'
    rw [hshared] at htasks' ⊢
    obtain rfl : c.edit [] = tasks := Option.some.inj (hsent.symm.trans htasks')
    exact hmatch

theorem step_inv {l : ℕ × Effect τ} (hok : Alone l s) (h : next l s s') (hinv : Inv s) :
    Inv s' := by
  obtain ⟨i, e⟩ := l
  obtain ⟨pc, pc', hi, hstep, htasks⟩ := h
  generalize hg : s'.shared = g at hstep
  cases hstep with
  | call c => exact call_inv hok hi hg htasks hinv
  | read => exact read_inv hi hg htasks hinv
  | send => exact send_inv hi hg htasks hinv
  | record h => exact record_inv hi h hg htasks hinv

theorem Inv.upToDate (hinv : Inv s) : UpToDate s := by
  intro hidle
  rcases hinv.settled with h | ⟨c, hc⟩
  · exact h
  · cases hidle _ hc

/-- In every run in which a container is prepared only when none is live and no call is under way,
and purged only when no other is live, the last update lists what is live. -/
theorem update_lists_live {s : St τ} (h : Reachable Init (Guarded Alone next) s) : UpToDate s :=
  (h.guarded_invariant (fun _ => init_inv) (fun _ _ _ hok hs hi => step_inv hok hs hi)).upToDate

/-- A request for a container. -/
def first : CreateTaskRequest := ⟨"first", "", [], "", "", "", false⟩

def noStreams : VSockTransport := ⟨none, none, none, ⟨"", "", "", false⟩⟩

def withFirst : SandboxData VSockTransport := { containers := [{ id := "first", io := noStreams }] }

def firstPrepared : St VSockTransport := ⟨⟨withFirst, some [newTask first]⟩, [.idle]⟩

theorem firstPrepared_reachable : Reachable Init (Guarded Alone next) firstPrepared := by
  have h₀ : Reachable Init (Guarded Alone next) (⟨⟨{}, none⟩, [.idle]⟩ : St VSockTransport) :=
    .init ⟨rfl, by simp⟩
  have h₁ := h₀.step ⟨(0, .begins (.prepareContainer noStreams first)), ⟨rfl, by simp⟩,
    TaskStep.of_step rfl (.call _)⟩
  have h₂ := h₁.step ⟨(0, .quiet), trivial, TaskStep.of_step rfl .read⟩
  have h₃ := h₂.step ⟨(0, .quiet), trivial, TaskStep.of_step rfl .send⟩
  exact h₃.step ⟨(0, .quiet), trivial, TaskStep.of_step rfl (.record rfl)⟩

theorem update_lists_first : UpToDate firstPrepared :=
  update_lists_live firstPrepared_reachable

/-- Two containers are prepared one after the other, and the last update lists only the second. -/
theorem second_update_forgets_first :
    ∃ s : St VSockTransport, Reachable Init (AnyStep next) s ∧
      s.shared.data.containers.map (·.id) = ["first", "second"] ∧
      s.shared.sent = some [newTask { first with id := "second" }] ∧ ¬ UpToDate s := by
  have h₁ := firstPrepared_reachable.unguarded.anyStep
    (0, Effect.begins (.prepareContainer noStreams { first with id := "second" }))
    (TaskStep.of_step rfl (.call _))
  have h₂ := h₁.anyStep (0, Effect.quiet) (TaskStep.of_step rfl .read)
  have h₃ := h₂.anyStep (0, Effect.quiet) (TaskStep.of_step rfl .send)
  have h₄ := h₃.anyStep (0, Effect.quiet) (TaskStep.of_step rfl (.record rfl))
  refine ⟨_, h₄, rfl, rfl, ?_⟩
  intro hup
  have hlen := (hup (by simp [firstPrepared]) _ rfl).length_eq
  cases hlen

end Steps

end Kuasar.Shim

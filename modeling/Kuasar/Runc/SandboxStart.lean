import Mathlib.Data.List.Nodup
import Mathlib.Logic.Relation
import Kuasar.Runc.ForkProtocol

/-!
# Runc.SandboxStart — what is done to the pid of a sandbox process

`RuncSandboxer::start` has a sandbox process forked, mounts its namespaces and kills it; it kills it
also when something fails. It takes the pid as it comes: whether what it does is done to the sandbox
process depends on what `fork_sandbox_process` returned.
-/

namespace Kuasar.Runc

open Tla

/-! ## Starting a sandbox -/

inductive Namespace where
  | uts
  | ipc
  | net
  deriving DecidableEq, Repr

/-- What is done to a process, by its pid. -/
inductive Effect where
  | mount (ns : Namespace) (pid : ℤ)
  | kill (pid : ℤ)
  deriving DecidableEq, Repr

def Effect.pid : Effect → ℤ
  | .mount _ pid => pid
  | .kill pid => pid

inductive StartError where
  | fork (e : CallError)
  | create (ns : Namespace)
  | mount (ns : Namespace)
  | dump
  deriving DecidableEq, Repr

/-- `SandboxStatus`, as a start sets it: with the pid as an `u32`. -/
inductive Status where
  | created
  | running (pid : ℕ)
  deriving DecidableEq, Repr

/-- What a start depends on: whether the pod shares the pid namespace, and which calls succeed. -/
structure Env where
  sharedPid : Bool
  creates : Namespace → Bool
  mounts : Namespace → Bool
  dumps : Bool

/-- Mount one namespace after the other; what was done, and the first failure. -/
def mountNamespaces (pid : ℤ) (env : Env) : List Namespace → List Effect × Option StartError
  | [] => ([], none)
  | ns :: rest =>
    if env.creates ns then
      if env.mounts ns then
        let r := mountNamespaces pid env rest
        (.mount ns pid :: r.1, r.2)
      else ([.mount ns pid], some (.mount ns))
    else ([], some (.create ns))

/-- `prepare_sandbox_ns`. -/
def prepareSandboxNs (pid : ℤ) (env : Env) : List Effect × Except StartError Status :=
  if env.sharedPid then ([], .ok (.running (MachineInt.toUnsigned 32 pid)))
  else
    match mountNamespaces pid env [.uts, .ipc, .net] with
    | (effects, some e) => (effects, .error e)
    | (effects, none) => (effects ++ [.kill pid], .ok (.running 0))

/-- `RuncSandboxer::start`, from the result of `fork_sandbox_process` on. -/
def start (forked : Except CallError ℤ) (env : Env) : List Effect × Except StartError Status :=
  match forked with
  | .error e => ([], .error (.fork e))
  | .ok pid =>
    match prepareSandboxNs pid env with
    | (effects, .error e) => (effects ++ [.kill pid], .error e)
    | (effects, .ok status) =>
      if env.dumps then (effects, .ok status) else (effects ++ [.kill pid], .error .dump)

theorem mountNamespaces_pid (pid : ℤ) (env : Env) (nss : List Namespace) :
    ∀ e ∈ (mountNamespaces pid env nss).1, e.pid = pid := by
  induction nss with
  | nil => exact nofun
  | cons ns rest ih =>
    unfold mountNamespaces
    split
    · split
      · intro e he
        rcases List.mem_cons.mp he with rfl | he
        · rfl
        · exact ih e he
      · intro e he
        rw [List.mem_singleton.mp he]
        rfl
    · exact nofun

theorem mem_append_kill {pid : ℤ} {effects : List Effect} (h : ∀ e ∈ effects, e.pid = pid) :
    ∀ e ∈ effects ++ [.kill pid], e.pid = pid := by
  intro e he
  rcases List.mem_append.mp he with he | he
  · exact h e he
  · rw [List.mem_singleton.mp he]
    rfl

theorem prepareSandboxNs_pid (pid : ℤ) (env : Env) :
    ∀ e ∈ (prepareSandboxNs pid env).1, e.pid = pid := by
  have hmount := mountNamespaces_pid pid env [.uts, .ipc, .net]
  unfold prepareSandboxNs
  split
  · exact nofun
  · split
    · rename_i heq
      rw [heq] at hmount
      exact hmount
    · rename_i heq
      rw [heq] at hmount
      exact mem_append_kill hmount

/-- A start acts on no process but the one whose pid was returned. -/
theorem start_pid {forked : Except CallError ℤ} {env : Env} {e : Effect}
    (he : e ∈ (start forked env).1) : forked = .ok e.pid := by
  unfold start at he
  split at he
  · exact absurd he List.not_mem_nil
  · rename_i pid
    have hprepare := prepareSandboxNs_pid pid env
    have hpid : e.pid = pid := by
      split at he
      · rename_i heq
        rw [heq] at hprepare
        exact mem_append_kill hprepare e he
      · rename_i heq
        rw [heq] at hprepare
        split at he
        · exact hprepare e he
        · exact mem_append_kill hprepare e he
    rw [hpid]

/-! ## Calls that are not disturbed -/

variable {s s' : State} {r : Request} {child : Child} {bytes got pipe rest : List UInt8}

abbrev Runs : StatePred State := Reachable (· = {}) (Guarded Sound Step)

/-- Neither does the sandbox parent die, nor its child before it has written the pid. -/
def Unharmed : Label → StatePred State
  | .parentDies, _ => False
  | .childDies, s => ∃ r pipe got, s.parent = .waiting r (.writing []) pipe got
  | l, s => Sound l s

abbrev UnharmedRuns : StatePred State := Reachable (· = {}) (Guarded Unharmed Step)

theorem UnharmedRuns.runs (hr : UnharmedRuns s) : Runs s := by
  refine hr.weaken fun l s hok => ?_
  cases l with
  | quiet | writeFails | readFails | sandboxDies => exact hok
  | parentDies => exact hok.elim
  | childDies => trivial

/-- The sandbox parent is there, with four bytes from a child that is gone and in an answer. -/
def Parent.Whole (heard : ℕ) : Parent → Prop
  | .waiting _ .gone pipe got => (got ++ pipe).length = 4
  | .answering _ => heard = 4
  | .orphan _ _ | .dead => False
  | _ => True

/-- Every answer on its way and every result is made of four bytes. -/
structure Whole (s : State) : Prop where
  parent : s.parent.Whole s.heard
  answer : s.resp ≠ [] ∨ (∃ b bs, s.caller = .reading (b :: bs)) → s.heard = 4
  returns : ∀ ret ∈ s.returns, ∀ p, ret.result = .ok p → ret.heard = 4

theorem whole_step {l : Label} (hok : Unharmed l s) (hstep : Step l s s') (hinv : Inv s)
    (h : Whole s) : Whole s' := by
  obtain ⟨hparent, hanswer, hreturns⟩ := h
  have hphase := hinv.phase
  cases hstep with
  | call hc =>
    rw [hc] at hphase
    refine ⟨?_, ?_, hreturns⟩
    · show s.parent.Whole 0
      generalize s.parent = parent at hphase hparent
      cases hphase with
      | idle => trivial
      | deadIdle => exact hparent
    · rintro (h | ⟨b, bs, h⟩)
      · generalize s.parent = parent at hphase
        cases hphase with
        | idle _ _ hresp | deadIdle hresp => exact absurd hresp h
      · cases h
  | @write _ bs rest hc =>
    refine ⟨hparent, ?_, hreturns⟩
    rintro (h | ⟨b, bs, h⟩)
    · exact hanswer (.inl h)
    · cases rest <;> cases h
  | writeFails =>
    have hdead : s.parent = .dead := hok
    rw [hdead] at hparent
    exact hparent.elim
  | @read _ got bs resp hc hresp =>
    refine ⟨hparent, ?_, hreturns⟩
    rintro (h | ⟨b, bs', h⟩)
    · exact hanswer (.inl (by simp [hresp]; exact fun _ => h))
    · cases got with
      | nil =>
        refine hanswer (.inl ?_)
        rw [hresp]
        cases h
        simp
      | cons c got => exact hanswer (.inr ⟨c, got, hc⟩)
  | @returned _ got hc hend =>
    refine ⟨hparent, ?_, ?_⟩
    · rintro (h | ⟨b, bs, h⟩)
      · exact hanswer (.inl h)
      · cases h
    · intro ret hret p hp
      rcases List.mem_append.mp hret with hret | hret
      · exact hreturns ret hret p hp
      · rw [List.mem_singleton.mp hret]
        rcases hend with hlen | ⟨hdead, -⟩
        · obtain ⟨b, bs, rfl⟩ := List.exists_cons_of_length_eq_add_one hlen
          simp [hanswer (.inr ⟨b, bs, hc⟩), hlen]
        · rw [hdead] at hparent
          exact hparent.elim
  | readFails => exact hok.elim
  | parentDies => exact hok.elim
  | parentRead | parentDecodes | parentForks | childForks | childWrites =>
    exact ⟨trivial, hanswer, hreturns⟩
  | @parentHears _ r child bs pipe got hp =>
    refine ⟨?_, hanswer, hreturns⟩
    rw [hp] at hparent
    cases child with
    | starting | writing => trivial
    | gone => simpa [Parent.Whole] using hparent
  | @parentHeard _ r child pipe got hp hend =>
    have hlen : got.length = 4 := by
      rcases hend with hlen | ⟨rfl, -, rfl⟩
      · exact hlen
      · rw [hp] at hparent
        simpa [Parent.Whole] using hparent
    exact ⟨hlen, fun _ => hlen, hreturns⟩
  | @parentWrites _ bs rest hp =>
    rw [hp] at hparent
    refine ⟨?_, fun _ => hparent, hreturns⟩
    cases rest with
    | nil => trivial
    | cons b rest => exact hparent
  | childDies hp =>
    obtain ⟨r, pipe, got, hwritten⟩ := hok
    rw [hp] at hwritten hphase
    cases hwritten
    refine ⟨?_, hanswer, hreturns⟩
    generalize s.caller = caller at hphase
    cases hphase with
    | waiting h hword =>
      obtain ⟨f, -, -, hall⟩ := hword
      rw [List.append_nil] at hall
      exact (congrArg List.length hall).trans (length_toLeBytes 4 _)
  | orphanForks hp | orphanDies hp =>
    rw [hp] at hparent
    exact hparent.elim
  | sandboxDies => exact ⟨hparent, hanswer, hreturns⟩

theorem UnharmedRuns.whole (hr : UnharmedRuns s) : Whole s := by
  induction hr with
  | init h =>
    subst h
    exact ⟨trivial, by simp, nofun⟩
  | step hr hn ih =>
    obtain ⟨l, hok, hstep⟩ := hn
    exact whole_step hok hstep (reachable_inv (UnharmedRuns.runs hr)) ih

/-! ## A call can return -/

/-- The processes can go on until the call returns. -/
def CanReturn (s : State) : Prop :=
  ∃ s', Relation.ReflTransGen (Step .quiet) s s' ∧ s'.returns.length = s.returns.length + 1

theorem CanReturn.of_step (hstep : Step .quiet s s') (h : CanReturn s')
    (hreturns : s'.returns = s.returns) : CanReturn s := by
  obtain ⟨t, hrun, hlen⟩ := h
  exact ⟨t, hrun.head hstep, hreturns ▸ hlen⟩

theorem canReturn_reading (hc : s.caller = .reading got) (hlen : (got ++ s.resp).length = 4) :
    CanReturn s := by
  refine .of_step (@Step.read _ got s.resp [] hc (by simp) (Nat.le_of_eq hlen)) ?_ rfl
  exact ⟨_, .single (.returned rfl (.inl hlen)), by simp [State.finish]⟩

theorem canReturn_answering (hc : s.caller = .reading got) (hp : s.parent = .answering rest)
    (hlen : (got ++ s.resp ++ rest).length = 4) : CanReturn s := by
  refine .of_step (@Step.parentWrites _ rest [] (by simpa using hp)) ?_ rfl
  exact canReturn_reading hc (by simpa using hlen)

section

variable (hc : s.caller = .reading []) (hresp : s.resp = [])

include hc hresp

theorem canReturn_waiting (hp : s.parent = .waiting r child pipe got)
    (hlen : (got ++ pipe).length = 4) : CanReturn s := by
  refine .of_step (@Step.parentHears _ r child pipe [] got (by simpa using hp)
    (Nat.le_of_eq hlen)) ?_ rfl
  refine .of_step (.parentHeard rfl (.inl hlen)) ?_ rfl
  refine canReturn_answering hc rfl ?_
  simp [hresp, pidBytes, length_toLeBytes]

theorem canReturn_writing (hp : s.parent = .waiting r (.writing rest) pipe got)
    (hlen : (got ++ pipe ++ rest).length = 4) : CanReturn s := by
  refine .of_step (@Step.childWrites _ r rest [] pipe got (by simpa using hp)) ?_ rfl
  exact canReturn_waiting hc hresp rfl (by simpa using hlen)

theorem canReturn_starting (hp : s.parent = .waiting r .starting [] []) : CanReturn s := by
  refine .of_step (@Step.childForks _ r 1 [] [] hp (by decide) (by decide)) ?_ rfl
  exact canReturn_writing hc hresp rfl (length_toLeBytes 4 _)

theorem canReturn_serving (hp : s.parent = .serving r) : CanReturn s := by
  refine .of_step (.parentForks hp) ?_ rfl
  exact canReturn_starting hc hresp rfl

theorem canReturn_sent (hp : s.parent = .reading got) (hlen : (got ++ s.req).length = 512) :
    CanReturn s := by
  refine .of_step (@Step.parentRead _ got s.req [] hp (by simp) (Nat.le_of_eq hlen)) ?_ rfl
  refine .of_step (.parentDecodes rfl hlen) ?_ rfl
  exact canReturn_serving hc hresp rfl

end

theorem canReturn (hinv : Inv s) (hwhole : Whole s) (hbusy : s.caller ≠ .idle) : CanReturn s := by
  have hphase := hinv.phase
  have hparent := hwhole.parent
  generalize hc : s.caller = caller at hphase hbusy
  generalize hp : s.parent = parent at hphase hparent
  cases hphase with
  | idle | deadIdle => exact absurd rfl hbusy
  | @sending rest got _ h =>
    obtain ⟨⟨r, bytes, -, henc, hall⟩, -, hresp, -⟩ := h
    refine .of_step (@Step.write _ rest [] (by simpa using hc)) ?_ rfl
    refine canReturn_sent rfl hresp hp ?_
    rw [← List.append_assoc, hall, length_encode henc]
  | sent h =>
    obtain ⟨⟨r, bytes, -, henc, hall⟩, -, hresp, -⟩ := h
    rw [List.append_nil] at hall
    exact canReturn_sent hc hresp hp (by rw [hall, length_encode henc])
  | serving h => exact canReturn_serving hc h.resp hp
  | @waiting r child pipe got h hword =>
    cases child with
    | starting =>
      obtain ⟨rfl, rfl⟩ := List.append_eq_nil_iff.mp hword.1
      exact canReturn_starting hc h.resp hp
    | writing rest =>
      obtain ⟨f, -, -, hall⟩ := hword
      exact canReturn_writing hc h.resp hp (by rw [hall, length_toLeBytes])
    | gone => exact canReturn_waiting hc h.resp hp hparent
  | answering _ _ _ _ _ h => exact canReturn_answering hc hp (by rw [h, length_toLeBytes])
  | answered _ _ _ _ h => exact canReturn_reading hc (by rw [h, length_toLeBytes])
  | orphaned | deadWriting | deadReading => exact hparent.elim

/-- No two sandbox processes are forked for one request. -/
theorem fork_unique {f g : Fork} (hinv : Inv s) (hf : f ∈ s.forks) (hg : g ∈ s.forks)
    (h : f.request = g.request) : f = g := by
  have hnodup : (s.forks.map Fork.request).Nodup :=
    List.pairwise_map.mpr (hinv.ordered.imp Nat.ne_of_lt)
  exact List.inj_on_of_nodup_map hnodup hf hg h

theorem result_iff (hinv : Inv s) {ret : Return} (hret : ret ∈ s.returns) {p : ℤ}
    (hok : ret.result = .ok p) :
    (0 < p ∧ ∃ f ∈ s.forks, f.request = ret.request ∧ p = f.pid) ↔
      ∃ f ∈ s.forks, f.request = ret.request ∧ f.pid < 256 ^ ret.heard := by
  obtain ⟨v, rfl, hpart⟩ := hinv.returns ret hret p hok
  constructor
  · rintro ⟨hpos, f, hf, hreq, hv⟩
    refine ⟨f, hf, hreq, ?_⟩
    rcases hpart with ⟨-, rfl⟩ | ⟨g, -, -, hmod⟩
    · exact absurd hpos (by decide)
    · rw [← Int.ofNat_inj.mp hv, hmod]
      exact Nat.mod_lt _ (Nat.pow_pos (by decide))
  · rintro ⟨f, hf, hreq, hlt⟩
    have hpos := (hinv.forks f hf).2.1
    rcases hpart with ⟨hzero, -⟩ | ⟨g, hg, hgreq, rfl⟩
    · rw [hzero] at hlt
      omega
    · obtain rfl := fork_unique hinv hf hg (hreq.trans hgreq.symm)
      rw [Nat.mod_eq_of_lt hlt]
      exact ⟨by omega, f, hf, hreq, rfl⟩

/-- A call that returns a pid returns the one of the sandbox process that was forked for it exactly
if the bytes that came through make it up. In every run in which neither the sandbox parent dies,
nor its child before it has written the pid, they do; a start acts on no other process then, and a
call that has not returned can go on until it does. -/
theorem returned_pid (hr : Runs s) :
    (∀ ret ∈ s.returns, ∀ p, ret.result = .ok p →
      ((0 < p ∧ ∃ f ∈ s.forks, f.request = ret.request ∧ p = f.pid) ↔
        ∃ f ∈ s.forks, f.request = ret.request ∧ f.pid < 256 ^ ret.heard)) ∧
    (UnharmedRuns s →
      (∀ ret ∈ s.returns, ∀ p, ret.result = .ok p →
        0 < p ∧ ∃ f ∈ s.forks, f.request = ret.request ∧ p = f.pid) ∧
      (∀ ret ∈ s.returns, ∀ env, ∀ e ∈ (start ret.result env).1,
        0 < e.pid ∧ ∃ f ∈ s.forks, f.request = ret.request ∧ e.pid = f.pid) ∧
      (s.caller ≠ .idle → CanReturn s)) := by
  have hinv := reachable_inv hr
  refine ⟨fun ret hret p hok => result_iff hinv hret hok, ?_⟩
  intro hunharmed
  have hwhole := hunharmed.whole
  have hpid : ∀ ret ∈ s.returns, ∀ p, ret.result = .ok p →
      0 < p ∧ ∃ f ∈ s.forks, f.request = ret.request ∧ p = f.pid := by
    intro ret hret p hok
    have hheard := hwhole.returns ret hret p hok
    obtain ⟨v, -, ⟨hzero, -⟩ | ⟨f, hf, hreq, -⟩⟩ := hinv.returns ret hret p hok
    · omega
    · -- four bytes are more than a pid has
      refine (result_iff hinv hret hok).mpr ⟨f, hf, hreq, ?_⟩
      obtain ⟨-, -, hlt, -⟩ := hinv.forks f hf
      rw [hheard]
      omega
  refine ⟨hpid, ?_, canReturn hinv hwhole⟩
  intro ret hret env e he
  exact hpid ret hret e.pid (start_pid he)

theorem UnharmedRuns.quiet (hr : UnharmedRuns s) (h : Step .quiet s s') : UnharmedRuns s' :=
  hr.step ⟨.quiet, trivial, h⟩

/-- The request was read. -/
theorem runs_serving (henc : encode r = some bytes) :
    UnharmedRuns { caller := .reading [], parent := .serving (decode bytes), sent := [r],
                   served := 1 } := by
  have hcall : UnharmedRuns { caller := .writing bytes, sent := [r] } :=
    UnharmedRuns.quiet (.init rfl) (.call rfl henc)
  have hwrite : UnharmedRuns { caller := .reading [], req := bytes, sent := [r] } :=
    hcall.quiet (@Step.write _ bytes [] (by simp))
  have hread : UnharmedRuns { caller := .reading [], parent := .reading bytes, sent := [r] } :=
    hwrite.quiet (@Step.parentRead _ [] bytes [] rfl (by simp) (by simp [length_encode henc]))
  exact hread.quiet (.parentDecodes rfl (length_encode henc))

/-- The sandbox process was forked and its pid came through. -/
theorem runs_answered (henc : encode r = some bytes) (pid : ℕ) (hpos : 0 < pid)
    (hlt : pid < 2 ^ 31) :
    UnharmedRuns { sent := [r], served := 1, heard := 4, forks := [⟨0, decode bytes, pid⟩],
                   alive := [0], returns := [⟨0, .ok (pid : ℤ), 4⟩] } := by
  have hlen := length_toLeBytes 4 pid
  have hbytes := pidBytes_natCast hlt
  have hval : pidOf (field 4 (toLeBytes 4 pid)) = (pid : ℤ) := by
    have hmod : pid % 256 ^ 4 = pid := Nat.mod_eq_of_lt (by omega)
    rw [pidOf_field hlt (List.prefix_refl _), hlen, hmod]
  have hforked : UnharmedRuns
      { caller := .reading [], parent := .waiting (decode bytes) (.writing (toLeBytes 4 pid)) [] [],
        sent := [r], served := 1, forks := [⟨0, decode bytes, pid⟩], alive := [0] } := by
    rw [← hbytes]
    exact ((runs_serving henc).quiet (.parentForks rfl)).quiet (.childForks rfl hpos hlt)
  have hwritten := hforked.quiet (@Step.childWrites _ _ (toLeBytes 4 pid) [] [] []
    (by rw [List.append_nil]))
  have hhears := hwritten.quiet
    (@Step.parentHears _ (decode bytes) (.writing []) (toLeBytes 4 pid) [] [] (by simp)
      (by simp [hlen]))
  have hheard := hhears.quiet (.parentHeard rfl (Or.inl hlen))
  rw [List.nil_append, hval, hbytes, hlen] at hheard
  have hwrites := hheard.quiet (@Step.parentWrites _ (toLeBytes 4 pid) []
    (by rw [List.append_nil]))
  have hread := hwrites.quiet
    (@Step.read _ [] (toLeBytes 4 pid) [] rfl (by simp) (Nat.le_of_eq hlen))
  have hreturned := hread.quiet (.returned rfl (Or.inl hlen))
  simp only [State.finish, List.nil_append, hval, hlen] at hreturned
  exact hreturned

/-- A call whose answer comes through. -/
theorem returned_pid_whole :
    ∃ s, UnharmedRuns s ∧ (∃ ret ∈ s.returns, ret.result = .ok 70000) ∧
      ∃ f ∈ s.forks, (70000 : ℤ) = f.pid := by
  have henc : encode ⟨[97], []⟩ = some (field 64 [97] ++ field 448 []) := rfl
  have hr := runs_answered henc 70000 (by decide) (by decide)
  obtain ⟨-, f, hf, -, hpid⟩ :=
    ((returned_pid hr.runs).2 hr).1 _ (List.mem_singleton.mpr rfl) _ rfl
  exact ⟨_, hr, ⟨_, List.mem_singleton.mpr rfl, rfl⟩, f, hf, hpid⟩

/-- The sandbox parent dies before it has forked a child, and there is no sandbox process. -/
theorem runs_none (henc : encode r = some bytes) :
    Runs { parent := .dead, sent := [r], served := 1, returns := [⟨0, .ok 0, 0⟩] } := by
  have hdead := (runs_serving henc).runs.step ⟨.parentDies, trivial, .parentDies⟩
  have hreturned := hdead.step ⟨.quiet, trivial, .returned rfl (Or.inr ⟨rfl, rfl, rfl⟩)⟩
  have hzero : pidOf (field 4 []) = 0 := by decide
  simp only [State.finish, hzero] at hreturned
  exact hreturned

/-- The pid is then 0, and a start kills process 0, which is the process group of the sandboxer. -/
theorem returned_pid_none :
    ∃ s, Runs s ∧ s.forks = [] ∧ ∃ ret ∈ s.returns, ret.result = .ok 0 ∧
      (start ret.result ⟨false, fun _ => true, fun _ => false, true⟩).1 =
        [.mount .uts 0, .kill 0] := by
  have henc : encode ⟨[97], []⟩ = some (field 64 [97] ++ field 448 []) := rfl
  exact ⟨_, runs_none henc, rfl, _, List.mem_singleton.mpr rfl, rfl, rfl⟩

/-! ## Requests and answers -/

/-- Every call that sent a request returns before the next one. -/
structure Calls (s : State) : Prop where
  numbered : s.returns.map Return.request = List.range s.returns.length
  pending : s.sent.length = s.returns.length + if s.caller = .idle then 0 else 1

theorem calls_finish (h : Calls s) (hbusy : s.caller ≠ .idle) (result : Except CallError ℤ)
    (heard : ℕ) : Calls (s.finish result heard) := by
  have hpending := h.pending
  rw [if_neg hbusy] at hpending
  constructor
  · simp only [State.finish, List.map_append, h.numbered, List.map_cons, List.map_nil,
      List.length_append, List.length_singleton, List.range_succ, hpending, Nat.add_sub_cancel]
  · simpa [State.finish] using hpending

theorem calls_step {l : Label} (hstep : Step l s s') (h : Calls s) : Calls s' := by
  have hpending := h.pending
  cases hstep with
  | call hc =>
    rw [if_pos hc] at hpending
    exact ⟨h.numbered, by simp [hpending]⟩
  | @write _ bs rest hc =>
    rw [hc] at hpending
    refine ⟨h.numbered, ?_⟩
    cases rest <;> exact hpending
  | read hc =>
    rw [hc] at hpending
    exact ⟨h.numbered, hpending⟩
  | writeFails hc | returned hc | readFails hc => exact calls_finish h (by simp [hc]) _ _
  -- the other steps are not the caller's
  | _ => exact ⟨h.numbered, hpending⟩

theorem runs_calls (hr : Runs s) : Calls s := by
  refine hr.guarded_invariant ?_ ?_
  · rintro s rfl
    exact ⟨rfl, rfl⟩
  · exact fun l s s' _ hstep h => calls_step hstep h

/-- The sandbox processes are forked for the requests in the order in which they were sent, one at
most for each, and the answers come in that order; of a request the sandbox parent decodes what was
sent exactly if the id fills its field and the path does not. -/
theorem decoded_in_step (hr : Runs s) :
    (∀ f ∈ s.forks, ∃ r, s.sent[f.request]? = some r ∧
      ((0 : UInt8) ∉ r.id ∧ (0 : UInt8) ∉ r.netns →
        (f.decoded = r ↔ r.id.length = 64 ∧ r.netns.length < 448))) ∧
    s.forks.Pairwise (fun f g => f.request < g.request) ∧
    (∀ i ret, s.returns[i]? = some ret → ret.request = i ∧ ∀ p : ℤ, ret.result = .ok p →
      (ret.heard = 0 ∧ p = 0) ∨
        ∃ f ∈ s.forks, f.request = i ∧ p = ((f.pid % 256 ^ ret.heard : ℕ) : ℤ)) := by
  have hinv := reachable_inv hr
  refine ⟨?_, hinv.ordered, ?_⟩
  · intro f hf
    obtain ⟨-, -, -, r, bytes, hr, henc, hdecoded⟩ := hinv.forks f hf
    refine ⟨r, hr, ?_⟩
    rintro ⟨-, hnul⟩
    rw [hdecoded]
    exact decode_eq_iff henc hnul
  · intro i ret hret
    have hnumber : ret.request = i := by
      have hmap := congrArg (fun l => l[i]?) (runs_calls hr).numbered
      have hi := (List.getElem?_eq_some_iff.mp hret).1
      simpa [hret, List.getElem?_range hi] using hmap
    refine ⟨hnumber, ?_⟩
    intro p hok
    obtain ⟨v, rfl, hpart⟩ := hinv.returns ret (List.mem_of_getElem? hret) p hok
    rcases hpart with ⟨hzero, rfl⟩ | ⟨f, hf, hreq, rfl⟩
    · exact Or.inl ⟨hzero, rfl⟩
    · exact Or.inr ⟨f, hf, hreq.trans hnumber, rfl⟩

/-- An id of 64 bytes with a path. -/
theorem decoded_in_step_full :
    ∃ s, Runs s ∧ ∃ f ∈ s.forks, f.decoded = ⟨List.replicate 64 97, [47]⟩ := by
  have henc : encode ⟨List.replicate 64 97, [47]⟩ =
      some (field 64 (List.replicate 64 97) ++ field 448 [47]) := rfl
  have hr := (runs_answered henc 70000 (by decide) (by decide)).runs
  obtain ⟨r, hsent, hiff⟩ := (decoded_in_step hr).1 _ (List.mem_singleton.mpr rfl)
  obtain rfl : _ = r := Option.some.inj hsent
  exact ⟨_, hr, _, List.mem_singleton.mpr rfl, (hiff (by decide)).mpr (by decide)⟩

/-- A shorter id arrives with zeros after it, and a path that fills its field does not arrive. -/
theorem decoded_other :
    (∃ s, Runs s ∧ ∃ f ∈ s.forks, s.sent[f.request]? = some ⟨[97], []⟩ ∧
      f.decoded.id = 97 :: List.replicate 63 0) ∧
    ∃ s, Runs s ∧ ∃ f ∈ s.forks,
      s.sent[f.request]? = some ⟨List.replicate 64 97, List.replicate 448 47⟩ ∧
      f.decoded.netns = [] := by
  constructor
  · have henc : encode ⟨[97], []⟩ = some (field 64 [97] ++ field 448 []) := rfl
    refine ⟨_, (runs_answered henc 70000 (by decide) (by decide)).runs, _,
      List.mem_singleton.mpr rfl, rfl, ?_⟩
    exact (decode_encode henc).2.2.1
  · have henc : encode ⟨List.replicate 64 97, List.replicate 448 47⟩ =
        some (field 64 (List.replicate 64 97) ++ field 448 (List.replicate 448 47)) :=
      if_pos ⟨Nat.le_of_eq List.length_replicate, Nat.le_of_eq List.length_replicate⟩
    have hnul : (0 : UInt8) ∉ List.replicate 448 47 := fun hmem =>
      absurd (List.eq_of_mem_replicate hmem) (by decide)
    refine ⟨_, (runs_answered henc 70000 (by decide) (by decide)).runs, _,
      List.mem_singleton.mpr rfl, rfl, ?_⟩
    rw [decode_netns henc hnul, List.length_replicate, if_neg (by decide)]

end Kuasar.Runc

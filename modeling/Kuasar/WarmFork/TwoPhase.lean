import Kuasar.Tla.Tasks
import Kuasar.WarmFork.Injection

/-!
# WarmFork.TwoPhase — the barrier between `READY` and `COMMIT`

What every run of `inject_task` keeps to. Where a future stands fixes the messages of its
connection (`PrepareTrail`, `CommitTrail`, `AutonomousTrail`); the invariant ties the trail
of every connection to the phase of the request. From it follow the order of the messages
across connections (`commit_after_every_ready`), and what a failed first phase leaves to
the targets that were ready (`ready_targets_cancelled`): the timer of the first phase drops
their connections without a `CANCEL`. No request sends both `COMMIT` and `CANCEL`
(`one_decision`), and every request ends (`injection_ends`).
-/

namespace Kuasar.WarmFork

open Tla

open scoped List

/-! ## The messages of one connection -/

/-- The messages of connection `i`, the oldest first. -/
def logOf (tr : List (ℕ × Event)) (i : ℕ) : List Event :=
  (tr.filter fun e => e.1 = i).map Prod.snd

/-- Target `i` replied `READY` to its `PREPARE`. -/
def RepliedReady (tr : List (ℕ × Event)) (i : ℕ) : Prop :=
  ∃ p, [Event.sent (.prepare p), .received .ready] <+ logOf tr i

/-- Target `i` replied `STARTED` to its `COMMIT`. -/
def RepliedStarted (tr : List (ℕ × Event)) (i : ℕ) : Prop :=
  [Event.sent .commit, .received .started] <+ logOf tr i

@[simp] theorem logOf_append (tr es : List (ℕ × Event)) (i : ℕ) :
    logOf (tr ++ es) i = logOf tr i ++ logOf es i := by
  simp [logOf]

theorem logOf_map_self (es : List Event) (i : ℕ) : logOf (es.map fun e => (i, e)) i = es := by
  induction es with
  | nil => rfl
  | cons e es ih => simpa [logOf] using ih

variable {i : ℕ} {tr : List (ℕ × Event)} {a : Answer} {l : List Event} {pc : Pc} {c : Conn}
  {s s' : Inject} {conns : List Conn} {tasks : List ContainerTask}

theorem logOf_map_of_ne {j : ℕ} (es : List Event) (h : j ≠ i) :
    logOf (es.map fun e => (i, e)) j = [] := by
  induction es with
  | nil => rfl
  | cons e es ih => simp [logOf, Ne.symm h]

theorem mem_of_mem_logOf {e : Event} (h : e ∈ logOf tr i) : (i, e) ∈ tr := by
  simp only [logOf, List.mem_map, List.mem_filter, decide_eq_true_eq] at h
  obtain ⟨⟨j, e⟩, ⟨hmem, rfl⟩, rfl⟩ := h
  exact hmem

theorem RepliedReady.append (h : RepliedReady tr i) (es : List (ℕ × Event)) :
    RepliedReady (tr ++ es) i := by
  obtain ⟨p, hp⟩ := h
  refine ⟨p, ?_⟩
  rw [logOf_append]
  exact hp.trans (List.sublist_append_left _ _)

/-- Two messages in a row, of which one more may be the second. -/
theorem pair_sublist_concat {a b x : Event} (h : [a, b] <+ l ++ [x]) :
    [a, b] <+ l ∨ (a ∈ l ∧ b = x) := by
  obtain ⟨l₁, l₂, hsplit, h₁, h₂⟩ := List.sublist_append_iff.mp h
  rcases List.sublist_singleton.mp h₂ with rfl | rfl
  · rw [List.append_nil] at hsplit
    rw [hsplit]
    exact .inl h₁
  · have hsplit : [a] ++ [b] = l₁ ++ [x] := hsplit
    obtain ⟨rfl, hx⟩ := List.append_inj' hsplit rfl
    exact .inr ⟨List.singleton_sublist.mp h₁, List.singleton_inj.mp hx⟩

/-- Messages of the agent alone do not make a reply. -/
theorem sublist_of_append_sent {e m : Event} {es : List Event} (hes : ∀ e ∈ es, ∃ m, e = .sent m)
    (hm : ∃ w, m = .received w) (h : [e, m] <+ l ++ es) : [e, m] <+ l := by
  induction es using List.reverseRecOn with
  | nil => simpa using h
  | append_singleton es x ih =>
    rw [← List.append_assoc] at h
    rcases pair_sublist_concat h with h | ⟨-, hx⟩
    · exact ih (fun e he => hes e (by simp [he])) h
    · obtain ⟨w, rfl⟩ := hm
      obtain ⟨m', hm'⟩ := hes x (by simp)
      rw [hm'] at hx
      cases hx

/-! ## Trails -/

/-- The messages of a connection in the first phase. -/
def PrepareTrail : Pc → List Event → Prop
  | .connect, l => l = []
  | .capabilities, l => l = []
  | .sendPrepare, l => ∃ c, l = [.received (.capabilities c)]
  | .reply, l => ∃ c p, l = [.received (.capabilities c), .sent (.prepare p)]
  | .ready, l => ∃ c p, l = [.received (.capabilities c), .sent (.prepare p), .received .ready]
  | .failed _, l => ∀ p, ¬ [Event.sent (.prepare p), .received .ready] <+ l
  | _, _ => False

/-- The messages of a connection in the second phase. -/
def CommitTrail : Pc → List Event → Prop
  | .sendCommit, l =>
    ∃ c p, l = [.received (.capabilities c), .sent (.prepare p), .received .ready]
  | .awaitStarted, l =>
    ∃ c p, l = [.received (.capabilities c), .sent (.prepare p), .received .ready, .sent .commit]
  | .started, l =>
    ∃ c p, l = [.received (.capabilities c), .sent (.prepare p), .received .ready, .sent .commit,
      .received .started]
  | .failed _, l => (∃ p, [Event.sent (.prepare p), .received .ready] <+ l) ∧
      ¬ [Event.sent .commit, .received .started] <+ l
  | _, _ => False

/-- The messages of a connection that has no first phase. -/
def AutonomousTrail : Pc → List Event → Prop
  | .connect, l => l = []
  | .capabilities, l => l = []
  | .sendCommit, l => ∃ c, l = [.received (.capabilities c)]
  | .awaitStarted, l => ∃ c, l = [.received (.capabilities c), .sent .commit]
  | .started, l => ∃ c, l = [.received (.capabilities c), .sent .commit, .received .started]
  | .failed _, l => ¬ [Event.sent .commit, .received .started] <+ l
  | _, _ => False

/-- In the first phase a target that replied `READY` is ready. -/
theorem prepareTrail_ready {p : PreparePayload} (h : PrepareTrail pc l)
    (hp : [Event.sent (.prepare p), .received .ready] <+ l) : pc = .ready := by
  cases pc with
  | ready => rfl
  | failed r => exact absurd hp (h p)
  | connect | capabilities =>
    have h : l = [] := h
    simp [h] at hp
  | sendPrepare =>
    obtain ⟨w, rfl⟩ := h
    simp [List.sublist_cons_iff] at hp
  | reply =>
    obtain ⟨w, q, rfl⟩ := h
    simp [List.sublist_cons_iff] at hp
  | sendCommit | awaitStarted | started => exact h.elim

/-- In the second phase a target has replied `READY`. -/
theorem commitTrail_ready (h : CommitTrail pc l) :
    ∃ p, [Event.sent (.prepare p), .received .ready] <+ l := by
  cases pc with
  | sendCommit | awaitStarted | started =>
    obtain ⟨w, p, rfl⟩ := h
    exact ⟨p, by simp [List.sublist_cons_iff]⟩
  | failed r => exact h.1
  | connect | capabilities | sendPrepare | reply | ready => exact h.elim

/-- Without a first phase a target that replied `STARTED` is started. -/
theorem autonomousTrail_started (h : AutonomousTrail pc l)
    (hp : [Event.sent .commit, .received .started] <+ l) : pc = .started := by
  cases pc with
  | started => rfl
  | failed r => exact absurd hp h
  | connect | capabilities =>
    have h : l = [] := h
    simp [h] at hp
  | sendCommit | awaitStarted =>
    obtain ⟨w, rfl⟩ := h
    simp [List.sublist_cons_iff] at hp
  | sendPrepare | reply | ready => exact h.elim

/-! ## What an answer does -/

theorem verifyCapabilities_eq_none {m : WorkloadMessage} (h : verifyCapabilities m = none) :
    ∃ w, m = .capabilities w := by
  cases m with
  | capabilities w => exact ⟨w, rfl⟩
  | ready => cases h
  | started => cases h
  | reject reason message => cases h
  | cancelAck => cases h

/-- The future of `c` fails with a result of its own target. -/
def Fails (c : Conn) (phase : InjectPhase) (pc : Pc) : Prop :=
  ∃ status text, status ≠ .started ∧ pc = .failed (c.result status phase text)

theorem connectStatus_ne_started (e : String) : connectStatus e ≠ .started := by
  unfold connectStatus
  split
  · decide
  · split <;> decide

/-- What an answer does to a future that greets its target, sends in `send` and waits for the
reply `w` in `wait`. -/
inductive Exchange (phase : InjectPhase) (send wait done : Pc) (w : WorkloadMessage) (c : Conn) :
    Answer → Pc → Prop where
  | connected (hpc : c.pc = .connect) : Exchange phase send wait done w c .connected .capabilities
  | greeted (m : Capabilities) (hpc : c.pc = .capabilities) :
    Exchange phase send wait done w c (.message (.capabilities m)) send
  | written (hpc : c.pc = send) : Exchange phase send wait done w c .written wait
  | replied (hpc : c.pc = wait) : Exchange phase send wait done w c (.message w) done
  | fails {a : Answer} {pc : Pc} (h : Fails c phase pc)
    (hpc : c.pc = .connect ∨ c.pc = .capabilities ∨ c.pc = send ∨ c.pc = wait ∧ a ≠ .message w) :
    Exchange phase send wait done w c a pc

theorem Exchange.of_greet {phase : InjectPhase} {send wait done : Pc} {w : WorkloadMessage}
    (h : greet phase send c a = some pc) : Exchange phase send wait done w c a pc := by
  unfold greet at h
  split at h
  · cases h
    exact .connected ‹_›
  · cases h
    exact .fails ⟨_, _, connectStatus_ne_started _, rfl⟩ (.inl ‹_›)
  · split at h
    · rename_i hnone
      cases h
      obtain ⟨m, rfl⟩ := verifyCapabilities_eq_none hnone
      exact .greeted m ‹_›
    · cases h
      exact .fails ⟨_, _, by decide, rfl⟩ (.inr (.inl ‹_›))
  · cases h
    exact .fails ⟨_, _, by decide, rfl⟩ (.inr (.inl ‹_›))
  · cases h

theorem injectPrepareOne_exchange (h : injectPrepareOne c a = some pc) :
    Exchange .prepare .sendPrepare .reply .ready .ready c a pc := by
  unfold injectPrepareOne at h
  split at h
  · cases h
    exact .written ‹_›
  · cases h
    exact .fails ⟨_, _, by decide, rfl⟩ (.inr (.inr (.inl ‹_›)))
  · cases h
    exact .fails ⟨_, _, by decide, rfl⟩ (by simp [*])
  · cases h
    exact .replied ‹_›
  · cases h
    exact .fails ⟨_, _, by decide, rfl⟩ (by simp [*])
  · cases h
    exact .fails ⟨_, _, by decide, rfl⟩ (by simp_all)
  · exact .of_greet h

theorem injectCommitOne_exchange (h : injectCommitOne c a = some pc) :
    Exchange .commit .sendCommit .awaitStarted .started .started c a pc := by
  unfold injectCommitOne at h
  split at h
  · cases h
    exact .written ‹_›
  · cases h
    exact .fails ⟨_, _, by decide, rfl⟩ (.inr (.inr (.inl ‹_›)))
  · cases h
    exact .fails ⟨_, _, by decide, rfl⟩ (by simp [*])
  · cases h
    exact .replied ‹_›
  · cases h
    exact .fails ⟨_, _, by decide, rfl⟩ (by simp_all)
  · cases h

theorem injectAutonomousOne_exchange (h : injectAutonomousOne c a = some pc) :
    Exchange .commit .sendCommit .awaitStarted .started .started c a pc := by
  unfold injectAutonomousOne at h
  split at h
  · exact .of_greet h
  · exact .of_greet h
  · exact injectCommitOne_exchange h

/-- An answer completes at most one message, and what is read is what was answered. -/
theorem Conn.events_cases (c : Conn) (a : Answer) :
    c.events a = [] ∨ (∃ m, c.events a = [.sent m]) ∨
      (∃ m, a = .message m ∧ c.events a = [.received m]) := by
  have hwrite : c.write = [] ∨ ∃ m, c.write = [.sent m] := by
    unfold Conn.write
    split
    · exact .inr ⟨_, rfl⟩
    · exact .inr ⟨_, rfl⟩
    · exact .inl rfl
  cases a with
  | connected | connectError e | readError e => exact .inl rfl
  | message m => exact .inr (.inr ⟨m, rfl, rfl⟩)
  | written | writeError e => rcases hwrite with h | h <;> simp [Conn.events, h]

/-- A reply that is complete after an answer was complete before it, or is the answer. -/
theorem Conn.reply_of_events {m : SandboxerMessage} {w : WorkloadMessage}
    (h : [Event.sent m, .received w] <+ l ++ c.events a) :
    [Event.sent m, .received w] <+ l ∨ (.sent m ∈ l ∧ a = .message w) := by
  rcases c.events_cases a with he | ⟨m', he⟩ | ⟨m', rfl, he⟩ <;> rw [he] at h
  · rw [List.append_nil] at h
    exact .inl h
  · refine .inl (sublist_of_append_sent ?_ ⟨w, rfl⟩ h)
    intro e hmem
    exact ⟨m', List.mem_singleton.mp hmem⟩
  · rcases pair_sublist_concat h with h | ⟨hsent, hw⟩
    · exact .inl h
    · cases hw
      exact .inr ⟨hsent, rfl⟩

theorem prepareTrail_step (h : injectPrepareOne c a = some pc) (hl : PrepareTrail c.pc l) :
    PrepareTrail pc (l ++ c.events a) := by
  cases injectPrepareOne_exchange h with
  | connected hpc =>
    rw [hpc] at hl
    simpa [PrepareTrail, Conn.events] using hl
  | greeted w hpc =>
    rw [hpc] at hl
    exact ⟨w, by simpa [PrepareTrail, Conn.events] using hl⟩
  | written hpc =>
    rw [hpc] at hl
    obtain ⟨w, rfl⟩ := hl
    exact ⟨w, c.task.payload, by simp [Conn.events, Conn.write, hpc]⟩
  | replied hpc =>
    rw [hpc] at hl
    obtain ⟨w, p, rfl⟩ := hl
    exact ⟨w, p, rfl⟩
  | fails hfails hpc =>
    -- what was read last is not the reply it waited for
    obtain ⟨status, text, -, rfl⟩ := hfails
    intro p hsub
    rcases c.reply_of_events hsub with hsub | ⟨hsent, rfl⟩
    · have hready := prepareTrail_ready hl hsub
      rcases hpc with hpc | hpc | hpc | ⟨hpc, -⟩ <;> rw [hpc] at hready <;> cases hready
    · rcases hpc with hpc | hpc | hpc | ⟨-, hne⟩
      · rw [hpc] at hl
        cases hl
        cases hsent
      · rw [hpc] at hl
        cases hl
        cases hsent
      · rw [hpc] at hl
        obtain ⟨w, rfl⟩ := hl
        simp at hsent
      · exact hne rfl

theorem commitTrail_step (h : injectCommitOne c a = some pc) (hl : CommitTrail c.pc l) :
    CommitTrail pc (l ++ c.events a) := by
  cases injectCommitOne_exchange h with
  | connected hpc | greeted w hpc =>
    rw [hpc] at hl
    exact hl.elim
  | written hpc =>
    rw [hpc] at hl
    obtain ⟨w, p, rfl⟩ := hl
    exact ⟨w, p, by simp [Conn.events, Conn.write, hpc]⟩
  | replied hpc =>
    rw [hpc] at hl
    obtain ⟨w, p, rfl⟩ := hl
    exact ⟨w, p, rfl⟩
  | fails hfails hpc =>
    obtain ⟨status, text, -, rfl⟩ := hfails
    obtain ⟨p, hp⟩ := commitTrail_ready hl
    refine ⟨⟨p, hp.trans (List.sublist_append_left _ _)⟩, ?_⟩
    intro hsub
    rcases hpc with hpc | hpc | hpc | ⟨hpc, hne⟩ <;> rw [hpc] at hl
    · exact hl
    · exact hl
    · obtain ⟨w, q, rfl⟩ := hl
      rcases c.reply_of_events hsub with hsub | ⟨hsent, -⟩
      · simp [List.sublist_cons_iff] at hsub
      · simp at hsent
    · obtain ⟨w, q, rfl⟩ := hl
      rcases c.reply_of_events hsub with hsub | ⟨-, ha⟩
      · simp [List.sublist_cons_iff] at hsub
      · exact hne ha

theorem autonomousTrail_step (h : injectAutonomousOne c a = some pc) (hl : AutonomousTrail c.pc l) :
    AutonomousTrail pc (l ++ c.events a) := by
  cases injectAutonomousOne_exchange h with
  | connected hpc =>
    rw [hpc] at hl
    simpa [AutonomousTrail, Conn.events] using hl
  | greeted w hpc =>
    rw [hpc] at hl
    exact ⟨w, by simpa [AutonomousTrail, Conn.events] using hl⟩
  | written hpc =>
    rw [hpc] at hl
    obtain ⟨w, rfl⟩ := hl
    exact ⟨w, by simp [Conn.events, Conn.write, hpc]⟩
  | replied hpc =>
    rw [hpc] at hl
    obtain ⟨w, rfl⟩ := hl
    exact ⟨w, rfl⟩
  | fails hfails hpc =>
    obtain ⟨status, text, -, rfl⟩ := hfails
    intro hsub
    rcases c.reply_of_events hsub with hsub | ⟨hsent, rfl⟩
    · have hstarted := autonomousTrail_started hl hsub
      rcases hpc with hpc | hpc | hpc | ⟨hpc, -⟩ <;> rw [hpc] at hstarted <;> cases hstarted
    · rcases hpc with hpc | hpc | hpc | ⟨-, hne⟩
      · rw [hpc] at hl
        cases hl
        cases hsent
      · rw [hpc] at hl
        cases hl
        cases hsent
      · rw [hpc] at hl
        obtain ⟨w, rfl⟩ := hl
        simp at hsent
      · exact hne rfl

/-! ## The invariant -/

/-- Where every connection stands in its phase. -/
def Trails (s : Inject) : Prop :=
  match s.phase with
  | .autonomous => ∀ (i : ℕ) (c : Conn), s.conns[i]? = some c →
      AutonomousTrail c.pc (logOf s.trace i)
  | .preparing => ∀ (i : ℕ) (c : Conn), s.conns[i]? = some c →
      PrepareTrail c.pc (logOf s.trace i)
  | .committing => ∀ (i : ℕ) (c : Conn), s.conns[i]? = some c →
      CommitTrail c.pc (logOf s.trace i)
  | .returned _ => True

/-- The messages that the phase has not come to. -/
def Quiet (s : Inject) : Prop :=
  match s.phase with
  | .autonomous => True
  | .preparing => ∀ i, (i, .sent .commit) ∉ s.trace ∧ ∀ r, (i, .sent (.cancel r)) ∉ s.trace
  | .committing => ∀ i r, (i, .sent (.cancel r)) ∉ s.trace
  | .returned _ => True

/-- A request for `tasks` in progress. -/
structure Inv (tasks : List ContainerTask) (s : Inject) : Prop where
  targets : s.conns.map Conn.task = tasks
  /-- A failure is reported for its own target. -/
  honest : ∀ c ∈ s.conns, ∀ r, c.pc = .failed r →
    r.containerId = c.task.containerId ∧ r.status ≠ .started
  mode : s.phase = .autonomous → isAutonomous tasks = true
  trails : Trails s
  quiet : Quiet s

theorem answer_cases (h : s.answer i a = some s') :
    ∃ c pc, s.conns[i]? = some c ∧ s.phase.advance c a = some pc ∧
      s' = { s with
        conns := s.conns.set i { c with pc := pc }
        trace := s.trace ++ (c.events a).map fun e => (i, e) } := by
  unfold Inject.answer at h
  split at h
  · cases h
  · rename_i c hc
    rcases hpc : s.phase.advance c a with _ | pc
    · simp [hpc] at h
    · rw [hpc] at h
      cases h
      exact ⟨c, pc, hc, hpc, rfl⟩

/-- A future fails with a result of its own target. -/
theorem advance_failed {phase : Phase} {r : ContainerInjectResult}
    (h : phase.advance c a = some (.failed r)) :
    r.containerId = c.task.containerId ∧ r.status ≠ .started := by
  have hfails : ∃ phase, Fails c phase (.failed r) := by
    cases phase with
    | autonomous =>
      cases injectAutonomousOne_exchange h with
      | fails h => exact ⟨_, h⟩
    | preparing =>
      cases injectPrepareOne_exchange h with
      | fails h => exact ⟨_, h⟩
    | committing =>
      cases injectCommitOne_exchange h with
      | fails h => exact ⟨_, h⟩
    | returned rs => cases h
  obtain ⟨phase, status, text, hstatus, hr⟩ := hfails
  cases hr
  exact ⟨rfl, hstatus⟩

theorem Conn.cancel_notMem_events (c : Conn) (a : Answer) (r : String) :
    .sent (.cancel r) ∉ c.events a := by
  cases a <;> simp [Conn.events, Conn.write] <;> split <;> simp

theorem Conn.commit_mem_events (h : .sent .commit ∈ c.events a) : c.pc = .sendCommit := by
  have hwrite : .sent .commit ∈ c.write → c.pc = .sendCommit := by
    unfold Conn.write
    split
    · simp
    · intro _
      assumption
    · simp
  cases a with
  | written | writeError e => exact hwrite h
  | connected | connectError e | message m | readError e => simp [Conn.events] at h

/-- The tasks stay with their connections. -/
theorem map_task_set (pc : Pc) (hi : conns[i]? = some c) :
    (conns.set i { c with pc := pc }).map Conn.task = conns.map Conn.task := by
  apply List.ext_getElem?
  intro j
  rw [List.getElem?_map, List.getElem?_map, List.getElem?_set]
  split
  · rename_i hij
    subst hij
    obtain ⟨hlt, rfl⟩ := List.getElem?_eq_some_iff.mp hi
    simp [hlt]
  · rfl

/-- What an answer on connection `i` adds to the log of connection `j`. -/
theorem logOf_answer (tr : List (ℕ × Event)) (es : List Event) (i j : ℕ) :
    logOf (tr ++ es.map fun e => (i, e)) j = logOf tr j ++ if j = i then es else [] := by
  rw [logOf_append]
  split
  · rename_i h
    rw [h, logOf_map_self]
  · rename_i h
    rw [logOf_map_of_ne es h]

/-- A trail that every step of a future keeps is kept by an answer. -/
theorem trails_answer {T : Pc → List Event → Prop} (hi : conns[i]? = some c)
    (hstep : ∀ l, T c.pc l → T pc (l ++ c.events a))
    (h : ∀ (j : ℕ) (d : Conn), conns[j]? = some d → T d.pc (logOf tr j)) (j : ℕ) (d : Conn)
    (hd : (conns.set i { c with pc := pc })[j]? = some d) :
    T d.pc (logOf (tr ++ (c.events a).map fun e => (i, e)) j) := by
  rw [logOf_answer]
  rcases getElem?_set_cases hd with ⟨rfl, rfl⟩ | ⟨hne, hd⟩
  · rw [if_pos rfl]
    exact hstep _ (h j c hi)
  · rw [if_neg hne, List.append_nil]
    exact h j d hd

theorem init_inv (h : Init tasks s) : Inv tasks s := by
  cases h
  have hconn : ∀ (i : ℕ) (c : Conn), (start tasks).conns[i]? = some c → c.pc = .connect := by
    intro i c hc
    obtain ⟨t, -, rfl⟩ := List.mem_map.mp (List.mem_of_getElem? hc)
    rfl
  constructor
  · simp [start, Function.comp_def]
  · intro c hc r hr
    obtain ⟨t, -, rfl⟩ := List.mem_map.mp hc
    cases hr
  · intro hphase
    by_contra hmode
    simp [start, hmode] at hphase
  · unfold Trails
    split
    · intro i c hc
      rw [hconn i c hc]
      rfl
    · intro i c hc
      rw [hconn i c hc]
      rfl
    · rename_i hphase
      simp only [start] at hphase
      split at hphase <;> cases hphase
    · trivial
  · unfold Quiet
    split <;> simp [start]

theorem answer_inv (h : s.answer i a = some s') (hinv : Inv tasks s) : Inv tasks s' := by
  obtain ⟨c, pc, hi, hpc, rfl⟩ := answer_cases h
  constructor
  · exact (map_task_set pc hi).trans hinv.targets
  · intro d hd r hr
    rcases List.mem_or_eq_of_mem_set hd with hd | rfl
    · exact hinv.honest d hd r hr
    · have hr : pc = .failed r := hr
      rw [hr] at hpc
      show r.containerId = c.task.containerId ∧ r.status ≠ .started
      exact advance_failed hpc
  · exact hinv.mode
  · have htrails := hinv.trails
    unfold Trails at htrails ⊢
    rcases hphase : s.phase with _ | _ | _ | rs <;> rw [hphase] at hpc htrails
    · exact trails_answer hi (fun l => autonomousTrail_step hpc) htrails
    · exact trails_answer hi (fun l => prepareTrail_step hpc) htrails
    · exact trails_answer hi (fun l => commitTrail_step hpc) htrails
    · trivial
  · have hquiet := hinv.quiet
    have htrails := hinv.trails
    unfold Quiet Trails at *
    have hcancel : ∀ j r, (j, .sent (.cancel r)) ∉ (c.events a).map fun e => (i, e) := by
      intro j r hmem
      obtain ⟨e, he, heq⟩ := List.mem_map.mp hmem
      cases heq
      exact c.cancel_notMem_events a r he
    rcases hphase : s.phase with _ | _ | _ | rs <;> rw [hphase] at htrails hquiet
    · trivial
    · intro j
      constructor
      · intro hmem
        rcases List.mem_append.mp hmem with hmem | hmem
        · exact (hquiet j).1 hmem
        · -- no connection of the first phase is about to commit
          obtain ⟨e, he, heq⟩ := List.mem_map.mp hmem
          cases heq
          have := htrails i c hi
          rw [Conn.commit_mem_events he] at this
          exact this
      · intro r hmem
        rcases List.mem_append.mp hmem with hmem | hmem
        · exact (hquiet j).2 r hmem
        · exact hcancel j r hmem
    · intro j r hmem
      rcases List.mem_append.mp hmem with hmem | hmem
      · exact hquiet j r hmem
      · exact hcancel j r hmem
    · trivial

theorem failedResults_eq_nil (h : failedResults conns = []) (hc : c ∈ conns)
    (r : ContainerInjectResult) : c.pc ≠ .failed r := by
  intro hr
  have hmem : r ∈ failedResults conns := List.mem_filterMap.mpr ⟨c, hc, by simp [hr]⟩
  rw [h] at hmem
  cases hmem

/-- A future that is done with the first phase is ready or has failed. -/
theorem prepared_cases (hres : c.resolved = true) (ht : PrepareTrail c.pc l) :
    c.pc = .ready ∨ ∃ r, c.pc = .failed r := by
  unfold Conn.resolved at hres
  split at hres
  · exact .inl ‹_›
  · rename_i hpc
    rw [hpc] at ht
    exact ht.elim
  · exact .inr ⟨_, ‹_›⟩
  · cases hres

/-- The first phase ended and all futures are ready. -/
theorem endPrepare_committing (hfailed : failedResults s.conns = []) :
    s.endPrepare = { s with
      phase := .committing
      conns := s.conns.map fun c => { c with pc := .sendCommit } } := by
  simp [Inject.endPrepare, hfailed]

/-- The first phase ended and a future failed. -/
theorem endPrepare_cancelling (hfailed : failedResults s.conns ≠ []) :
    s.endPrepare = { s with
      phase := .returned (failedResults s.conns ++ cancelledResults s.conns)
      trace := s.trace ++ cancels s.conns } := by
  simp [Inject.endPrepare, hfailed]

theorem finish_cases (h : s.finish = some s') :
    (∀ c ∈ s.conns, c.resolved = true) ∧
      (s.phase = .preparing ∧ s' = s.endPrepare ∨
        (s.phase = .autonomous ∨ s.phase = .committing) ∧
          s' = { s with phase := .returned (commitResults s.conns) }) := by
  unfold Inject.finish at h
  split at h
  · rename_i hall
    refine ⟨List.all_eq_true.mp hall, ?_⟩
    split at h
    · cases h
      exact .inr ⟨.inl ‹_›, rfl⟩
    · cases h
      exact .inl ⟨‹_›, rfl⟩
    · cases h
      exact .inr ⟨.inr ‹_›, rfl⟩
    · cases h
  · cases h

theorem timeout_cases (h : s.timeout = some s') :
    (∃ c ∈ s.conns, c.resolved = false) ∧
      ∃ rs, s.phase.timeoutResults s.conns = some rs ∧ s' = { s with phase := .returned rs } := by
  unfold Inject.timeout at h
  split at h
  · cases h
  · rename_i hall
    refine ⟨by simpa using hall, ?_⟩
    rcases hrs : s.phase.timeoutResults s.conns with _ | rs
    · simp [hrs] at h
    · rw [hrs] at h
      cases h
      exact ⟨rs, rfl, rfl⟩

theorem returned_inv (hinv : Inv tasks s) (rs : List ContainerInjectResult)
    (tr : List (ℕ × Event)) : Inv tasks { s with phase := .returned rs, trace := tr } := by
  refine ⟨hinv.targets, hinv.honest, ?_, trivial, trivial⟩
  intro h
  cases h

theorem finish_inv (h : s.finish = some s') (hinv : Inv tasks s) : Inv tasks s' := by
  obtain ⟨hres, ⟨hphase, rfl⟩ | ⟨-, rfl⟩⟩ := finish_cases h
  · by_cases hfailed : failedResults s.conns = []
    · -- all are ready: the second phase
      rw [endPrepare_committing hfailed]
      have htrails := hinv.trails
      have hquiet := hinv.quiet
      unfold Trails at htrails
      unfold Quiet at hquiet
      rw [hphase] at htrails hquiet
      constructor
      · simpa [Function.comp_def] using hinv.targets
      · intro c hc r hr
        obtain ⟨d, -, rfl⟩ := List.mem_map.mp hc
        cases hr
      · intro hauto
        cases hauto
      · intro i c hc
        rw [List.getElem?_map] at hc
        obtain ⟨d, hd, rfl⟩ := Option.map_eq_some_iff.mp hc
        have hmem := List.mem_of_getElem? hd
        rcases prepared_cases (hres d hmem) (htrails i d hd) with hready | ⟨r, hr⟩
        · have hlog := htrails i d hd
          rw [hready] at hlog
          exact hlog
        · exact absurd hr (failedResults_eq_nil hfailed hmem r)
      · exact fun i r => (hquiet i).2 r
    · rw [endPrepare_cancelling hfailed]
      exact returned_inv hinv _ _
  · exact returned_inv hinv _ _

theorem timeout_inv (h : s.timeout = some s') (hinv : Inv tasks s) : Inv tasks s' := by
  obtain ⟨-, rs, -, rfl⟩ := timeout_cases h
  exact returned_inv hinv rs s.trace

theorem step_inv {l : Label} (h : next l s s') (hinv : Inv tasks s) : Inv tasks s' := by
  cases l with
  | answer i a => exact answer_inv h hinv
  | finish => exact finish_inv h hinv
  | timeout => exact timeout_inv h hinv

/-! ## `COMMIT` comes after every `READY` -/

/-- Every `COMMIT` comes after the `READY` of each of `n` targets, and no `CANCEL` comes
after it on its connection. -/
def Ordered (n : ℕ) (tr : List (ℕ × Event)) : Prop :=
  ∀ pre post i, tr = pre ++ (i, .sent .commit) :: post →
    (∀ j < n, RepliedReady pre j) ∧ ∀ r, (i, .sent (.cancel r)) ∉ post

/-- Messages keep the order if they commit only after every reply, and do not cancel where
there was a commit. -/
theorem Ordered.append {n : ℕ} {es : List (ℕ × Event)} (h : Ordered n tr)
    (hcommit : (∃ i, (i, .sent .commit) ∈ es) → ∀ j < n, RepliedReady tr j)
    (hcancel : (∃ i r, (i, .sent (.cancel r)) ∈ es) → ∀ i, (i, .sent .commit) ∉ tr ++ es) :
    Ordered n (tr ++ es) := by
  intro pre post i hsplit
  have hnot : ∀ r, (i, Event.sent (.cancel r)) ∉ es := by
    intro r hmem
    apply hcancel ⟨i, r, hmem⟩ i
    rw [hsplit]
    simp
  rcases List.append_eq_append_iff.mp hsplit with ⟨mid, hpre, hes⟩ | ⟨mid, htr, hpost⟩
  · -- the commit is among the new messages
    constructor
    · intro j hj
      rw [hpre]
      exact (hcommit ⟨i, by rw [hes]; simp⟩ j hj).append mid
    · intro r hmem
      apply hnot r
      rw [hes]
      simp [hmem]
  · cases mid with
    | nil =>
      rw [List.nil_append] at hpost
      rw [List.append_nil] at htr
      constructor
      · intro j hj
        rw [← htr]
        exact hcommit ⟨i, by rw [← hpost]; simp⟩ j hj
      · intro r hmem
        apply hnot r
        rw [← hpost]
        simp [hmem]
    | cons e mid =>
      obtain ⟨rfl, rfl⟩ := hpost
      obtain ⟨hready, hquiet⟩ := h pre mid i htr
      refine ⟨hready, ?_⟩
      intro r hmem
      rcases List.mem_append.mp hmem with hmem | hmem
      · exact hquiet r hmem
      · exact hnot r hmem

/-- A target has a connection. -/
theorem Inv.conn (hinv : Inv tasks s) (hi : i < tasks.length) :
    ∃ c, s.conns[i]? = some c ∧ tasks[i]? = some c.task := by
  rw [← hinv.targets, List.length_map] at hi
  refine ⟨s.conns[i], List.getElem?_eq_getElem hi, ?_⟩
  rw [← hinv.targets, List.getElem?_map, List.getElem?_eq_getElem hi, Option.map_some]

/-- In the second phase every target has replied `READY`. -/
theorem Inv.all_ready (hinv : Inv tasks s) (hphase : s.phase = .committing)
    (hi : i < tasks.length) : RepliedReady s.trace i := by
  have htrails := hinv.trails
  unfold Trails at htrails
  rw [hphase] at htrails
  obtain ⟨c, hc, -⟩ := hinv.conn hi
  exact commitTrail_ready (htrails i c hc)

theorem commit_notMem_cancels (conns : List Conn) (i : ℕ) : (i, .sent .commit) ∉ cancels conns := by
  intro hmem
  obtain ⟨⟨c, j⟩, -, h⟩ := List.mem_filterMap.mp hmem
  simp only at h
  split at h <;> cases h

/-- The order of the messages is kept by every step in injection mode. -/
theorem step_ordered (hmode : isAutonomous tasks = false) {l : Label} (h : next l s s')
    (hinv : Inv tasks s) (hord : Ordered tasks.length s.trace) : Ordered tasks.length s'.trace := by
  cases l with
  | answer i a =>
    obtain ⟨c, pc, hi, hpc, rfl⟩ := answer_cases h
    apply hord.append
    · rintro ⟨j, hmem⟩ k hk
      obtain ⟨e, he, heq⟩ := List.mem_map.mp hmem
      cases heq
      have hsend := Conn.commit_mem_events he
      have htrails := hinv.trails
      unfold Trails at htrails
      rcases hphase : s.phase with _ | _ | _ | rs <;> rw [hphase] at hpc htrails
      · rw [hinv.mode hphase] at hmode
        cases hmode
      · -- no future of the first phase is about to commit
        have := htrails i c hi
        rw [hsend] at this
        exact this.elim
      · exact hinv.all_ready hphase hk
      · cases hpc
    · rintro ⟨j, r, hmem⟩
      obtain ⟨e, he, heq⟩ := List.mem_map.mp hmem
      cases heq
      exact absurd he (c.cancel_notMem_events a r)
  | finish =>
    obtain ⟨-, ⟨hphase, rfl⟩ | ⟨-, rfl⟩⟩ := finish_cases h
    · have hquiet := hinv.quiet
      unfold Quiet at hquiet
      rw [hphase] at hquiet
      by_cases hfailed : failedResults s.conns = []
      · rw [endPrepare_committing hfailed]
        exact hord
      · rw [endPrepare_cancelling hfailed]
        apply hord.append
        · rintro ⟨j, hmem⟩
          exact absurd hmem (commit_notMem_cancels s.conns j)
        · rintro - j hmem
          rcases List.mem_append.mp hmem with hmem | hmem
          · exact (hquiet j).1 hmem
          · exact commit_notMem_cancels s.conns j hmem
    · exact hord
  | timeout =>
    obtain ⟨-, rs, -, rfl⟩ := timeout_cases h
    exact hord

/-- In injection mode, however the targets behave: when a `COMMIT` is sent, every target has
replied `READY` to its `PREPARE`, and no `CANCEL` follows it on its connection. -/
theorem commit_after_every_ready {tasks : List ContainerTask} (hmode : isAutonomous tasks = false)
    {s : Inject} (h : Reachable (Init tasks) (AnyStep next) s)
    {pre post : List (ℕ × Event)} {i : ℕ} (hs : s.trace = pre ++ (i, .sent .commit) :: post) :
    (∀ j < tasks.length, RepliedReady pre j) ∧ ∀ r, (i, .sent (.cancel r)) ∉ post := by
  have hinv : Inv tasks s ∧ Ordered tasks.length s.trace := by
    refine @Reachable.invariant _ _ (fun s => Inv tasks s ∧ Ordered tasks.length s.trace) _ s
      ?_ ?_ h
    · intro s hinit
      refine ⟨init_inv hinit, ?_⟩
      cases hinit
      intro pre post i hnil
      simp [start] at hnil
    · rintro s s' ⟨l, hl⟩ ⟨hinv, hord⟩
      exact ⟨step_inv hl hinv, step_ordered hmode hl hinv hord⟩
  exact hinv.2 pre post i hs

/-- The first phase of connection `i` with a target that is ready. -/
def readyAnswers (i : ℕ) : List Label :=
  [.answer i .connected, .answer i (.message (.capabilities ⟨protocolVersion, []⟩)),
    .answer i .written, .answer i (.message .ready)]

def twoTasks : List ContainerTask :=
  [{ containerId := "a", taskId := "t1" }, { containerId := "b", taskId := "t1" }]

/-- Both targets are ready, and the first is told to commit. -/
theorem commit_after_every_ready_twoTasks :
    ∃ s pre, Reachable (Init twoTasks) (AnyStep next) s ∧
      s.trace = pre ++ [(0, .sent .commit)] ∧ ∀ j < 2, RepliedReady pre j := by
  have hrun : ∃ s, replay step (readyAnswers 1 ++ readyAnswers 0 ++
      [.finish, .answer 0 .written]) (start twoTasks) = some s := ⟨_, rfl⟩
  obtain ⟨s, hs⟩ := hrun
  have hr : Reachable (Init twoTasks) (AnyStep next) s :=
    Reachable.replay rfl hs
  cases hs
  exact ⟨_, _, hr, rfl, (commit_after_every_ready (by decide) hr rfl).1⟩

/-! ## One decision for all targets -/

/-- No target was told to commit while another, or the same, was told to cancel. -/
def OneDecision (tr : List (ℕ × Event)) : Prop :=
  ∀ i j r, (i, .sent .commit) ∈ tr → (j, .sent (.cancel r)) ∉ tr

/-- A request that has not returned has not come to both messages. -/
theorem Inv.oneDecision (hinv : Inv tasks s) (hmode : isAutonomous tasks = false)
    (hphase : ∀ rs, s.phase ≠ .returned rs) : OneDecision s.trace := by
  intro i j r hcommit
  have hquiet := hinv.quiet
  unfold Quiet at hquiet
  rcases hp : s.phase with _ | _ | _ | rs <;> rw [hp] at hquiet
  · rw [hinv.mode hp] at hmode
    cases hmode
  · exact absurd hcommit (hquiet i).1
  · exact hquiet j r
  · exact absurd hp (hphase rs)

theorem step_oneDecision (hmode : isAutonomous tasks = false) {l : Label} (h : next l s s')
    (hinv : Inv tasks s) (hone : OneDecision s.trace) : OneDecision s'.trace := by
  cases l with
  | answer i a =>
    apply (answer_inv h hinv).oneDecision hmode
    obtain ⟨c, pc, -, hpc, rfl⟩ := answer_cases h
    intro rs hrs
    have hrs : s.phase = .returned rs := hrs
    rw [hrs] at hpc
    cases hpc
  | finish =>
    obtain ⟨-, ⟨hphase, rfl⟩ | ⟨-, rfl⟩⟩ := finish_cases h
    · by_cases hfailed : failedResults s.conns = []
      · rw [endPrepare_committing hfailed]
        exact hone
      · -- the only step that cancels starts where nobody was told to commit
        have hquiet := hinv.quiet
        unfold Quiet at hquiet
        rw [hphase] at hquiet
        rw [endPrepare_cancelling hfailed]
        intro i j r hcommit
        rcases List.mem_append.mp hcommit with hcommit | hcommit
        · exact absurd hcommit (hquiet i).1
        · exact absurd hcommit (commit_notMem_cancels s.conns i)
    · exact hone
  | timeout =>
    obtain ⟨-, rs, -, rfl⟩ := timeout_cases h
    exact hone

/-- In injection mode, however the targets behave and whenever a phase times out: a request that
has told one target to commit has told none to cancel. -/
theorem one_decision {tasks : List ContainerTask} (hmode : isAutonomous tasks = false) {s : Inject}
    (h : Reachable (Init tasks) (AnyStep next) s) : OneDecision s.trace := by
  have hinv : Inv tasks s ∧ OneDecision s.trace := by
    refine @Reachable.invariant _ _ (fun s => Inv tasks s ∧ OneDecision s.trace) _ s ?_ ?_ h
    · intro s hinit
      refine ⟨init_inv hinit, ?_⟩
      cases hinit
      intro i j r hnil
      exact absurd hnil List.not_mem_nil
    · rintro s s' ⟨l, hl⟩ ⟨hinv, hone⟩
      exact ⟨step_inv hl hinv, step_oneDecision hmode hl hinv hone⟩
  exact hinv.2

theorem one_decision_twoTasks :
    ∃ s, Reachable (Init twoTasks) (AnyStep next) s ∧ (0, .sent .commit) ∈ s.trace ∧
      OneDecision s.trace := by
  have hrun : replay step (readyAnswers 1 ++ readyAnswers 0 ++ [.finish, .answer 0 .written])
      (start twoTasks) = some _ := rfl
  have hr : Reachable (Init twoTasks) (AnyStep next) _ := Reachable.replay rfl hrun
  exact ⟨_, hr, by decide, one_decision (by decide) hr⟩

/-! ## What a failed first phase leaves -/

/-- A request that returned with a target that was not ready has sent a `CANCEL` to every
target that was. -/
def RollsBack (tasks : List ContainerTask) (s : Inject) : Prop :=
  ∀ rs, s.phase = .returned rs → (∃ j < tasks.length, ¬ RepliedReady s.trace j) →
    ∀ i < tasks.length, RepliedReady s.trace i → ∃ r, (i, .sent (.cancel r)) ∈ s.trace

/-- The timer of the first phase does not expire while a target is ready. -/
def Patient : Label → Tla.StatePred Inject
  | .timeout, s => s.phase = .preparing → ∀ c ∈ s.conns, c.pc ≠ .ready
  | _, _ => True

theorem mem_cancels (hi : conns[i]? = some c) (hready : c.pc = .ready) :
    (i, .sent (.cancel "rollback")) ∈ cancels conns := by
  apply List.mem_filterMap.mpr
  exact ⟨(c, i), List.mem_zipIdx_iff_getElem?.mpr hi, by simp [hready]⟩

/-- A `CANCEL` is not a reply. -/
theorem repliedReady_of_cancels (h : RepliedReady (tr ++ cancels conns) i) : RepliedReady tr i := by
  obtain ⟨p, hp⟩ := h
  rw [logOf_append] at hp
  refine ⟨p, sublist_of_append_sent ?_ ⟨_, rfl⟩ hp⟩
  intro e he
  obtain ⟨⟨c, j⟩, -, h⟩ := List.mem_filterMap.mp (mem_of_mem_logOf he)
  simp only at h
  split at h
  · cases h
    exact ⟨_, rfl⟩
  · cases h

theorem step_rollsBack (hmode : isAutonomous tasks = false) {l : Label} (hok : Patient l s)
    (h : next l s s') (hinv : Inv tasks s) : RollsBack tasks s' := by
  rintro rs hret ⟨k, hk, hnot⟩ i hi hready
  -- the target that was not ready rules the second phase out
  have hsecond : s.phase = .committing → s'.trace = s.trace → False := by
    intro hphase htrace
    apply hnot
    rw [htrace]
    exact hinv.all_ready hphase hk
  have hauto : s.phase ≠ .autonomous := by
    intro hphase
    rw [hinv.mode hphase] at hmode
    cases hmode
  have htrails := hinv.trails
  unfold Trails at htrails
  obtain ⟨c, hc, -⟩ := hinv.conn hi
  cases l with
  | answer j a =>
    obtain ⟨d, pc, -, hpc, rfl⟩ := answer_cases h
    rw [hret] at hpc
    cases hpc
  | finish =>
    obtain ⟨hres, ⟨hphase, rfl⟩ | ⟨hphase, rfl⟩⟩ := finish_cases h
    · rw [hphase] at htrails
      by_cases hfailed : failedResults s.conns = []
      · rw [endPrepare_committing hfailed] at hret
        cases hret
      · rw [endPrepare_cancelling hfailed] at hready ⊢
        obtain ⟨p, hp⟩ := repliedReady_of_cancels hready
        have hpc := prepareTrail_ready (htrails i c hc) hp
        exact ⟨"rollback", List.mem_append_right _ (mem_cancels hc hpc)⟩
    · rcases hphase with hphase | hphase
      · exact absurd hphase hauto
      · exact (hsecond hphase rfl).elim
  | timeout =>
    obtain ⟨-, rs', hrs, rfl⟩ := timeout_cases h
    rcases hphase : s.phase with _ | _ | _ | rs''
    · exact absurd hphase hauto
    · rw [hphase] at htrails
      obtain ⟨p, hp⟩ := hready
      have hpc := prepareTrail_ready (htrails i c hc) hp
      exact absurd hpc (hok hphase c (List.mem_of_getElem? hc))
    · exact (hsecond hphase rfl).elim
    · rw [hphase] at hrs
      cases hrs

/-- In injection mode, in every run in which the timer of the first phase does not expire
while a target is ready: a request that returned without every target being ready has sent
a `CANCEL` to each target that was. -/
theorem ready_targets_cancelled {tasks : List ContainerTask} (hmode : isAutonomous tasks = false)
    {s : Inject} (h : Reachable (Init tasks) (Guarded Patient next) s) :
    RollsBack tasks s := by
  have hinv : Inv tasks s ∧ RollsBack tasks s := by
    refine @Reachable.guarded_invariant _ _ _ (fun s => Inv tasks s ∧ RollsBack tasks s) _ _ s
      ?_ ?_ h
    · intro s hinit
      refine ⟨init_inv hinit, ?_⟩
      cases hinit
      intro rs hret
      simp only [start] at hret
      split at hret <;> cases hret
    · intro l s s' hok hl hinv
      exact ⟨step_inv hl hinv.1, step_rollsBack hmode hok hl hinv.1⟩
  exact hinv.2

def readyTrace (i : ℕ) : List (ℕ × Event) :=
  [(i, .received (.capabilities ⟨protocolVersion, []⟩)), (i, .sent (.prepare ⟨"t1", [], ""⟩)),
    (i, .received .ready)]

theorem repliedReady_readyTrace : RepliedReady (readyTrace 0) 0 :=
  ⟨⟨"t1", [], ""⟩, by decide⟩

/-- The second target cannot be reached after the first was ready. -/
theorem ready_targets_cancelled_refused :
    ∃ rs conns, Reachable (Init twoTasks) (Guarded Patient next)
        ⟨.returned rs, conns, readyTrace 0 ++ [(0, .sent (.cancel "rollback"))]⟩ ∧
      ¬ RepliedReady (readyTrace 0 ++ [(0, .sent (.cancel "rollback"))]) 1 ∧
      ∃ r, (0, .sent (.cancel r)) ∈ readyTrace 0 ++ [(0, .sent (.cancel "rollback"))] := by
  have hr : ∃ rs conns, Reachable (Init twoTasks) (Guarded Patient next)
      ⟨.returned rs, conns, readyTrace 0 ++ [(0, .sent (.cancel "rollback"))]⟩ := by
    refine ⟨_, _, Reachable.replay_guarded ?_ (.init rfl)
      (show replay step (readyAnswers 0 ++ [.answer 1 (.connectError "refused"), .finish])
        (start twoTasks) = _ from rfl)⟩
    intro l hl s
    simp only [readyAnswers, List.cons_append, List.nil_append, List.mem_cons, List.not_mem_nil,
      or_false] at hl
    rcases hl with rfl | rfl | rfl | rfl | rfl | rfl <;> trivial
  obtain ⟨rs, conns, hr⟩ := hr
  have hnot : ¬ RepliedReady (readyTrace 0 ++ [(0, .sent (.cancel "rollback"))]) 1 := by
    rintro ⟨p, hp⟩
    simp [logOf, readyTrace] at hp
  exact ⟨rs, conns, hr, hnot, ready_targets_cancelled (by decide) hr rs rfl ⟨1, by decide, hnot⟩ 0
    (by decide) (repliedReady_readyTrace.append _)⟩

/-- The timer of the first phase expires after the first target was ready: its connection is
closed without a `CANCEL`. -/
theorem timeout_skips_cancel :
    ∃ rs conns, Reachable (Init twoTasks) (AnyStep next)
        ⟨.returned rs, conns, readyTrace 0⟩ ∧
      RepliedReady (readyTrace 0) 0 ∧ ¬ RepliedReady (readyTrace 0) 1 ∧
      ∀ r, (0, .sent (.cancel r)) ∉ readyTrace 0 := by
  refine ⟨_, _, Reachable.replay rfl
    (show replay step (readyAnswers 0 ++ [.timeout]) (start twoTasks) = _ from rfl),
    repliedReady_readyTrace, ?_, ?_⟩
  · rintro ⟨p, hp⟩
    simp [logOf, readyTrace] at hp
  · simp [readyTrace]

/-! ## A request ends -/

/-- A request that has not returned can go on: its phase ends or times out. -/
theorem exists_step (hphase : ∀ rs, s.phase ≠ .returned rs) : ∃ l s', step l s = some s' := by
  by_cases hall : s.conns.all Conn.resolved = true
  · refine ⟨.finish, ?_⟩
    show ∃ s', s.finish = some s'
    unfold Inject.finish
    rw [if_pos hall]
    split
    · exact ⟨_, rfl⟩
    · exact ⟨_, rfl⟩
    · exact ⟨_, rfl⟩
    · exact absurd ‹_› (hphase _)
  · refine ⟨.timeout, ?_⟩
    show ∃ s', s.timeout = some s'
    unfold Inject.timeout
    rw [if_neg hall]
    rcases hp : s.phase with _ | _ | _ | rs
    · exact ⟨_, rfl⟩
    · exact ⟨_, rfl⟩
    · exact ⟨_, rfl⟩
    · exact absurd hp (hphase rs)

/-- How many answers a future can still take in its phase. -/
def Pc.left : Pc → ℕ
  | .connect => 4
  | .capabilities => 3
  | .sendPrepare | .sendCommit => 2
  | .reply | .awaitStarted => 1
  | .ready | .started | .failed _ => 0

/-- How many steps a request can still take. -/
def Inject.left (s : Inject) : ℕ :=
  match s.phase with
  | .preparing => (s.conns.map fun c => c.pc.left).sum + 2 * s.conns.length + 2
  | .autonomous | .committing => (s.conns.map fun c => c.pc.left).sum + 1
  | .returned _ => 0

theorem Exchange.left_lt {phase : InjectPhase} {send wait done : Pc} {w : WorkloadMessage}
    (h : Exchange phase send wait done w c a pc) (hsend : send.left = 2) (hwait : wait.left = 1)
    (hdone : done.left = 0) : pc.left < c.pc.left := by
  cases h with
  | connected hpc => simp [hpc, Pc.left]
  | greeted m hpc => simp [hpc, hsend, show Pc.capabilities.left = 3 from rfl]
  | written hpc => simp [hpc, hsend, hwait]
  | replied hpc => simp [hpc, hwait, hdone]
  | fails hfails hpc =>
    obtain ⟨status, text, -, rfl⟩ := hfails
    show 0 < c.pc.left
    rcases hpc with hpc | hpc | hpc | ⟨hpc, -⟩ <;> rw [hpc]
    · decide
    · decide
    · omega
    · omega

theorem advance_left_lt {phase : Phase} (h : phase.advance c a = some pc) :
    pc.left < c.pc.left := by
  cases phase with
  | autonomous => exact (injectAutonomousOne_exchange h).left_lt rfl rfl rfl
  | preparing => exact (injectPrepareOne_exchange h).left_lt rfl rfl rfl
  | committing => exact (injectCommitOne_exchange h).left_lt rfl rfl rfl
  | returned rs => cases h

theorem step_left_lt (l : Label) (s s' : Inject) (h : step l s = some s') : s'.left < s.left := by
  cases l with
  | answer i a =>
    obtain ⟨c, pc, hi, hpc, rfl⟩ := answer_cases h
    have hlt := advance_left_lt hpc
    have hsum := sum_weight_set (w := fun c : Conn => c.pc.left) { c with pc := pc } hi
    unfold Inject.left
    rcases hphase : s.phase with _ | _ | _ | rs
    · grind
    · grind
    · grind
    · rw [hphase] at hpc
      cases hpc
  | finish =>
    obtain ⟨-, ⟨hphase, rfl⟩ | ⟨hphase | hphase, rfl⟩⟩ := finish_cases h
    · by_cases hfailed : failedResults s.conns = []
      · rw [endPrepare_committing hfailed]
        simp [Inject.left, hphase, Pc.left, Function.comp_def]
        omega
      · rw [endPrepare_cancelling hfailed]
        simp [Inject.left, hphase]
    · simp [Inject.left, hphase]
    · simp [Inject.left, hphase]
  | timeout =>
    obtain ⟨-, rs, hrs, rfl⟩ := timeout_cases h
    rcases hphase : s.phase with _ | _ | _ | rs' <;>
      simp_all [Inject.left, Phase.timeoutResults]

/-- However the targets answer, a request ends, if its writes of `CANCEL` do, around which there is
no timer: it takes at most six steps for each target and two more, and where no step is possible
it has returned. -/
theorem injection_ends (tasks : List ContainerTask) (ls : List Label) {s : Inject}
    (h : replay step ls (start tasks) = some s) :
    ls.length ≤ 6 * tasks.length + 2 ∧
      ((∀ l, step l s = none) ↔ ∃ rs, s.phase = .returned rs) := by
  refine ⟨?_, ?_, ?_⟩
  · have hle := length_replay_le step_left_lt h
    have hstart : (start tasks).left ≤ 6 * tasks.length + 2 := by
      unfold Inject.left start
      by_cases hmode : isAutonomous tasks = true <;>
        simp [hmode, Pc.left, Function.comp_def] <;> omega
    omega
  · intro hnone
    by_contra hphase
    obtain ⟨l, s', hl⟩ := exists_step (not_exists.mp hphase)
    cases (hnone l).symm.trans hl
  · rintro ⟨rs, hrs⟩ l
    -- nothing is left to count
    rcases hl : step l s with _ | s'
    · rfl
    · have hlt := step_left_lt l s s' hl
      simp [Inject.left, hrs] at hlt

theorem injection_ends_twoTasks :
    ∃ ls s, replay step ls (start twoTasks) = some s ∧ ls.length ≤ 6 * twoTasks.length + 2 := by
  have hrun : replay step (readyAnswers 1 ++ [.timeout]) (start twoTasks) = some _ := rfl
  exact ⟨_, _, hrun, (injection_ends _ _ hrun).1⟩

end Kuasar.WarmFork

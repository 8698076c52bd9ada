import Mathlib.Data.List.Infix
import Kuasar.Tla.Core
import Kuasar.WarmFork.Message

/-!
# WarmFork.Injection — the guest agent hands the tasks to the waiting workloads

`inject_task` runs one future for each target. In injection mode there are two phases:
every future connects, reads the workload's capabilities, sends `PREPARE` and waits for
`READY`; when all of them have, every future sends `COMMIT` and waits for `STARTED`. In
autonomous mode there is no first phase. Each phase ends when all its futures are done or
when its timer expires, and then the futures that are not done are dropped.

A connection moves when an input or output it waits for completes (`Answer`); targets
answer in any order, with any message, or not at all. The state is where every future
stands, the phase of the request, and the trace of the messages that were read and
written. A write that fails counts as sent: some of its bytes may have left. The
`CANCEL`s of a failed first phase are written at once when the phase ends, as `join_all`
polls their futures before anything else happens.
-/

namespace Kuasar.WarmFork

/-! ## Requests and results -/

structure ContainerTask where
  containerId : String
  socketPath : String := ""
  taskId : String
  envOverrides : List (String × String) := []
  context : String := ""
  deriving DecidableEq, Repr

/-- What became of a target. -/
inductive InjectStatus where
  | started
  | reject
  | connectFailed
  | namespaceError
  | protocolError
  | timeoutPrepare
  | timeoutCommit
  | targetNotFound
  | internalError
  deriving DecidableEq, Repr

inductive InjectPhase where
  | prepare
  | commit
  deriving DecidableEq, Repr

structure ContainerInjectResult where
  containerId : String
  status : InjectStatus
  phase : InjectPhase
  message : String := ""
  deriving DecidableEq, Repr

/-- The `Debug` text of a reason. -/
def RejectReason.debug : RejectReason → String
  | .parseError => "ParseError"
  | .invalidTaskId => "InvalidTaskId"
  | .resourceExhausted => "ResourceExhausted"

/-- The `Debug` text of a message. -/
def WorkloadMessage.debug : WorkloadMessage → String
  | .capabilities c => "Capabilities(Capabilities \x7b protocol_version: " ++
      c.protocolVersion.quote ++ ", supported_features: [" ++
      ", ".intercalate (c.supportedFeatures.map String.quote) ++ "] \x7d)"
  | .ready => "Ready"
  | .started => "Started"
  | .reject reason message => "Reject \x7b reason: " ++ reason.debug ++ ", message: " ++
      message.quote ++ " \x7d"
  | .cancelAck => "CancelAck"

/-! ## One connection -/

/-- Where the future of a target stands. The results of a phase are `ready`, `started` and
`failed`. -/
inductive Pc where
  | connect
  | capabilities
  | sendPrepare
  | reply
  | ready
  | sendCommit
  | awaitStarted
  | started
  | failed (r : ContainerInjectResult)
  deriving DecidableEq, Repr

/-- A target and its future. -/
structure Conn where
  task : ContainerTask
  pc : Pc
  deriving DecidableEq, Repr

/-- The completion of an input or output. Errors carry their text. -/
inductive Answer where
  | connected
  | connectError (e : String)
  | message (m : WorkloadMessage)
  | readError (e : String)
  | written
  | writeError (e : String)
  deriving DecidableEq, Repr

def Conn.result (c : Conn) (status : InjectStatus) (phase : InjectPhase) (message : String) :
    ContainerInjectResult :=
  ⟨c.task.containerId, status, phase, message⟩

def contains (s part : String) : Bool := decide (part.toList <:+: s.toList)

/-- The status of a failed connection, read off the text of its error. -/
def connectStatus (e : String) : InjectStatus :=
  if contains e "not found" then .targetNotFound
  else if contains e "mnt ns" then .namespaceError
  else .connectFailed

/-- `read_and_verify_capabilities`: the error of a first message. -/
def verifyCapabilities : WorkloadMessage → Option String
  | .capabilities c =>
    if c.protocolVersion ≠ protocolVersion then
      some s!"protocol version mismatch: expected {protocolVersion} got {c.protocolVersion}"
    else none
  | m => some ("expected CAPABILITIES, got " ++ m.debug)

/-- Connect and read the capabilities, then go on at `next`. -/
def greet (phase : InjectPhase) (next : Pc) (c : Conn) : Answer → Option Pc := fun a =>
  match c.pc, a with
  | .connect, .connected => some .capabilities
  | .connect, .connectError e => some (.failed (c.result (connectStatus e) phase e))
  | .capabilities, .message m =>
    match verifyCapabilities m with
    | none => some next
    | some e => some (.failed (c.result .protocolError phase ("capabilities: " ++ e)))
  | .capabilities, .readError e =>
    some (.failed (c.result .protocolError phase ("capabilities: " ++ e)))
  | _, _ => none

/-- `inject_prepare_one`. -/
def injectPrepareOne (c : Conn) (a : Answer) : Option Pc :=
  match c.pc, a with
  | .sendPrepare, .written => some .reply
  | .sendPrepare, .writeError e =>
    some (.failed (c.result .protocolError .prepare ("write PREPARE: " ++ e)))
  | .reply, .readError e =>
    some (.failed (c.result .protocolError .prepare ("read READY/REJECT: " ++ e)))
  | .reply, .message .ready => some .ready
  | .reply, .message (.reject reason message) =>
    some (.failed (c.result .reject .prepare (reason.asStr ++ ": " ++ message)))
  | .reply, .message m =>
    some (.failed (c.result .protocolError .prepare ("expected READY or REJECT, got " ++ m.debug)))
  | _, _ => greet .prepare .sendPrepare c a

/-- `inject_commit_one`. -/
def injectCommitOne (c : Conn) (a : Answer) : Option Pc :=
  match c.pc, a with
  | .sendCommit, .written => some .awaitStarted
  | .sendCommit, .writeError e =>
    some (.failed (c.result .protocolError .commit ("write COMMIT: " ++ e)))
  | .awaitStarted, .readError e =>
    some (.failed (c.result .protocolError .commit ("read STARTED: " ++ e)))
  | .awaitStarted, .message .started => some .started
  | .awaitStarted, .message m =>
    some (.failed (c.result .protocolError .commit ("expected STARTED, got " ++ m.debug)))
  | _, _ => none

/-- `inject_autonomous_one`: the first message, then as in the second phase. -/
def injectAutonomousOne (c : Conn) (a : Answer) : Option Pc :=
  match c.pc with
  | .connect => greet .commit .sendCommit c a
  | .capabilities => greet .commit .sendCommit c a
  | _ => injectCommitOne c a

/-! ## The request -/

/-- A message on a connection, as the agent sees it. -/
inductive Event where
  | received (m : WorkloadMessage)
  | sent (m : SandboxerMessage)
  deriving DecidableEq, Repr

inductive Phase where
  | autonomous
  | preparing
  | committing
  | returned (results : List ContainerInjectResult)
  deriving DecidableEq, Repr

/-- A request in progress. The trace holds every message with the number of its
connection, the oldest first. -/
structure Inject where
  phase : Phase
  conns : List Conn
  trace : List (ℕ × Event)
  deriving DecidableEq, Repr

/-- No target is given a task. -/
def isAutonomous (tasks : List ContainerTask) : Bool := tasks.all fun t => t.taskId.isEmpty

/-- The start of `inject_task`. -/
def start (tasks : List ContainerTask) : Inject where
  phase := if isAutonomous tasks then .autonomous else .preparing
  conns := tasks.map fun t => ⟨t, .connect⟩
  trace := []

/-- The payload of a `PREPARE`. -/
def ContainerTask.payload (t : ContainerTask) : PreparePayload :=
  ⟨t.taskId, t.envOverrides, t.context⟩

def Conn.write (c : Conn) : List Event :=
  match c.pc with
  | .sendPrepare => [.sent (.prepare c.task.payload)]
  | .sendCommit => [.sent .commit]
  | _ => []

/-- The message that an answer completes. -/
def Conn.events (c : Conn) : Answer → List Event
  | .connected => []
  | .connectError _ => []
  | .readError _ => []
  | .message m => [.received m]
  | .written => c.write
  | .writeError _ => c.write

def Phase.advance : Phase → Conn → Answer → Option Pc
  | .autonomous => injectAutonomousOne
  | .preparing => injectPrepareOne
  | .committing => injectCommitOne
  | .returned _ => fun _ _ => none

/-- The future is done with its phase. -/
def Conn.resolved (c : Conn) : Bool :=
  match c.pc with
  | .ready => true
  | .started => true
  | .failed _ => true
  | _ => false

def failedResults (conns : List Conn) : List ContainerInjectResult :=
  conns.filterMap fun c =>
    match c.pc with
    | .failed r => some r
    | _ => none

def cancelledResults (conns : List Conn) : List ContainerInjectResult :=
  conns.filterMap fun c =>
    if c.pc = .ready then
      some (c.result .internalError .prepare "cancelled due to peer failure")
    else none

def cancels (conns : List Conn) : List (ℕ × Event) :=
  conns.zipIdx.filterMap fun (c, i) =>
    if c.pc = .ready then some (i, .sent (.cancel "rollback")) else none

/-- The results after `COMMIT`. -/
def commitResults (conns : List Conn) : List ContainerInjectResult :=
  conns.map fun c =>
    match c.pc with
    | .failed r => r
    | _ => c.result .started .commit ""

/-- The results of a phase whose timer expired, the same for every target. -/
def timeoutResults (status : InjectStatus) (phase : InjectPhase) (message : String)
    (conns : List Conn) : List ContainerInjectResult :=
  conns.map fun c => c.result status phase message

/-- The end of the first phase: cancel, or go on to the second. -/
def Inject.endPrepare (s : Inject) : Inject :=
  if failedResults s.conns ≠ [] then
    { s with
      phase := .returned (failedResults s.conns ++ cancelledResults s.conns)
      trace := s.trace ++ cancels s.conns }
  else
    { s with
      phase := .committing
      conns := s.conns.map fun c => { c with pc := .sendCommit } }

/-- What happens: an answer on a connection, the end of a phase, or its timeout. -/
inductive Label where
  | answer (i : ℕ) (a : Answer)
  | finish
  | timeout
  deriving DecidableEq, Repr

def Inject.answer (s : Inject) (i : ℕ) (a : Answer) : Option Inject :=
  match s.conns[i]? with
  | none => none
  | some c =>
    (s.phase.advance c a).map fun pc =>
      { s with
        conns := s.conns.set i { c with pc := pc }
        trace := s.trace ++ (c.events a).map fun e => (i, e) }

/-- All futures of the phase are done. -/
def Inject.finish (s : Inject) : Option Inject :=
  if s.conns.all Conn.resolved then
    match s.phase with
    | .autonomous => some { s with phase := .returned (commitResults s.conns) }
    | .preparing => some s.endPrepare
    | .committing => some { s with phase := .returned (commitResults s.conns) }
    | .returned _ => none
  else none

def Phase.timeoutResults : Phase → List Conn → Option (List ContainerInjectResult)
  | .autonomous, conns =>
    some (WarmFork.timeoutResults .timeoutCommit .commit "autonomous commit timed out" conns)
  | .preparing, conns =>
    some (WarmFork.timeoutResults .timeoutPrepare .prepare "prepare phase timed out" conns)
  | .committing, conns =>
    some (WarmFork.timeoutResults .timeoutCommit .commit "commit phase timed out" conns)
  | .returned _, _ => none

/-- The timer of the phase expires: it is looked at only while a future is not done. -/
def Inject.timeout (s : Inject) : Option Inject :=
  if s.conns.all Conn.resolved then none
  else (s.phase.timeoutResults s.conns).map fun rs => { s with phase := .returned rs }

def step : Label → Inject → Option Inject
  | .answer i a, s => s.answer i a
  | .finish, s => s.finish
  | .timeout, s => s.timeout

/-- The steps of a request. -/
def next : Label → Tla.Action Inject := Tla.StepOf step

/-- A request for `tasks`, at its start. -/
def Init (tasks : List ContainerTask) : Tla.StatePred Inject := fun s => s = start tasks

end Kuasar.WarmFork

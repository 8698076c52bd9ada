import Kuasar.Data.MachineInt
import Kuasar.Guest.Streaming
import Mathlib.Data.List.Induction
import Mathlib.Data.List.TakeWhile

/-!
# Guest.StdinStreams — the input of a container and the streams that bring it

A stream brings the input of a container in messages, which its handler queues in the channel of
the stream's id; `StreamingStdin` gives the process the bytes in pieces of any size.

* Reading: the process reads the bytes of the chunks in order, and nothing only at the end
  (`stdin_read_exact`).
* Credit: the handler grants its client a window when less than one is left, and counts what it has
  received against it (`stdin_credit_bounded`).
* Attaching: the one sender of the channel goes back to it when a window update fails, so that
  another stream can go on. It is dropped with a stream whose receive fails or whose message has no
  chunk in it: the container sees the end of its input, and no stream can attach any more
  (`stdin_continues_iff`).
-/

namespace Kuasar.Streaming

open Tla MachineInt

/-! ## Reading -/

/-- The chunk that a read has not finished, and how far it came. -/
structure Remaining where
  data : Chunk
  offset : ℕ
  offset_lt : offset < data.length

/-- The receiver of a channel, with what is queued in it; `closed` says that the sender is gone. -/
structure StreamingStdin where
  receiver : List Chunk := []
  closed : Bool := false
  remaining : Option Remaining := none

inductive Poll where
  | pending
  | ready (data : List UInt8)
  deriving DecidableEq

def keep (data : Chunk) (offset : ℕ) : Option Remaining :=
  if h : offset < data.length then some ⟨data, offset, h⟩ else none

/-- The loop of `poll_read`, for a buffer with `room`. -/
def pollRecv (room : ℕ) (closed : Bool) : List Chunk → Poll × StreamingStdin
  | [] => (if closed then .ready [] else .pending, ⟨[], closed, none⟩)
  | a :: receiver =>
    if a = [] then pollRecv room closed receiver
    else
      let len := min a.length room
      (.ready (a.take len), ⟨receiver, closed, keep a len⟩)

/-- `poll_read`. -/
def pollRead (room : ℕ) (stdin : StreamingStdin) : Poll × StreamingStdin :=
  match stdin.remaining with
  | some r =>
    let len := min (r.data.length - r.offset) room
    (.ready ((r.data.drop r.offset).take len),
      { stdin with remaining := keep r.data (r.offset + len) })
  | none => pollRecv room stdin.closed stdin.receiver

def Poll.bytes : Poll → List UInt8
  | .pending => []
  | .ready data => data

def rest (remaining : Option Remaining) : List UInt8 :=
  remaining.elim [] fun r => r.data.drop r.offset

/-- The bytes that are still to be read. -/
def StreamingStdin.unread (stdin : StreamingStdin) : List UInt8 :=
  rest stdin.remaining ++ stdin.receiver.flatten

theorem rest_keep (data : Chunk) (offset : ℕ) : rest (keep data offset) = data.drop offset := by
  unfold keep
  split
  · rfl
  · exact (List.drop_eq_nil_of_le (by omega)).symm

theorem take_append_rest (data : Chunk) (len : ℕ) :
    data.take len ++ rest (keep data len) = data := by
  rw [rest_keep, List.take_append_drop]

theorem take_ne_nil {data : Chunk} {room : ℕ} (hdata : data ≠ []) (hroom : 0 < room) :
    data.take (min data.length room) ≠ [] := by
  have := List.length_pos_iff.mpr hdata
  refine List.ne_nil_of_length_pos ?_
  rw [List.length_take]
  omega

theorem Remaining.drop_ne_nil (r : Remaining) : r.data.drop r.offset ≠ [] := by
  have := r.offset_lt
  simp only [ne_eq, List.drop_eq_nil_iff]
  omega

section Polls

variable {room : ℕ} {closed : Bool} {stdin : StreamingStdin}

/-- What a poll says of the bytes that were to be read before it and after it. -/
structure PollSpec (room : ℕ) (closed : Bool) (unread : List UInt8)
    (polled : Poll × StreamingStdin) : Prop where
  bytes : polled.1.bytes ++ polled.2.unread = unread
  unchanged : polled.2.closed = closed
  some_read : 0 < room → unread ≠ [] → ∃ data ≠ [], polled.1 = .ready data
  none_left : unread = [] → polled.1 = if closed then .ready [] else .pending

theorem pollRecv_spec (receiver : List Chunk) :
    PollSpec room closed receiver.flatten (pollRecv room closed receiver) := by
  induction receiver with
  | nil =>
    refine ⟨?_, rfl, fun _ h => absurd rfl h, fun _ => rfl⟩
    cases closed <;> rfl
  | cons a receiver ih =>
    unfold pollRecv
    by_cases ha : a = []
    · rw [if_pos ha, ha]
      exact ih
    · rw [if_neg ha]
      refine ⟨?_, rfl, fun hroom _ => ⟨_, take_ne_nil ha hroom, rfl⟩, ?_⟩
      · show a.take _ ++ (rest (keep a _) ++ receiver.flatten) = a ++ receiver.flatten
        rw [← List.append_assoc, take_append_rest]
      · intro hnil
        exact absurd (List.append_eq_nil_iff.mp hnil).1 ha

theorem pollRead_spec (room : ℕ) (stdin : StreamingStdin) :
    PollSpec room stdin.closed stdin.unread (pollRead room stdin) := by
  obtain ⟨receiver, closed, _ | r⟩ := stdin
  · exact pollRecv_spec receiver
  · have hlen : (r.data.drop r.offset).length = r.data.length - r.offset := List.length_drop
    refine ⟨?_, rfl, fun hroom _ => ⟨_, ?_, rfl⟩, ?_⟩
    · show (r.data.drop r.offset).take _ ++ (rest (keep r.data _) ++ receiver.flatten) =
        r.data.drop r.offset ++ receiver.flatten
      rw [rest_keep, ← List.drop_drop, ← List.append_assoc, List.take_append_drop]
    · rw [← hlen]
      exact take_ne_nil r.drop_ne_nil hroom
    · intro hnil
      exact absurd (List.append_eq_nil_iff.mp hnil).1 r.drop_ne_nil

end Polls

/-- What was sent to the channel and what was read from it. -/
structure Reading where
  stdin : StreamingStdin := {}
  sent : List Chunk := []
  read : List UInt8 := []

/-- A chunk is sent, the sender is dropped, or the process reads. -/
inductive Reading.Next : Reading → Reading → Prop where
  | send {s} (d : Chunk) (hopen : s.stdin.closed = false)
      (hroom : s.stdin.receiver.length < capacity) :
      Next s { s with
        stdin := { s.stdin with receiver := s.stdin.receiver ++ [d] }, sent := s.sent ++ [d] }
  | close {s} : Next s { s with stdin := { s.stdin with closed := true } }
  | read {s} (room : ℕ) :
      Next s { s with
        stdin := (pollRead room s.stdin).2
        read := s.read ++ (pollRead room s.stdin).1.bytes }

def Reading.Init : StatePred Reading := fun s => s = {}

theorem Reading.reachable_bytes {s : Reading} (h : Reachable Reading.Init Reading.Next s) :
    s.read ++ s.stdin.unread = s.sent.flatten := by
  induction h with
  | init h =>
    subst h
    rfl
  | @step s s' _ hnext ih =>
    cases hnext with
    | send d hopen hroom =>
      show s.read ++ (rest s.stdin.remaining ++ (s.stdin.receiver ++ [d]).flatten) = _
      rw [List.flatten_append, List.flatten_append, ← ih]
      simp [StreamingStdin.unread]
    | close => exact ih
    | read room =>
      show s.read ++ _ ++ (pollRead room s.stdin).2.unread = s.sent.flatten
      rw [List.append_assoc, (pollRead_spec room s.stdin).bytes]
      exact ih

/-- Whatever is sent and however it is read: the bytes read and those still to be read are the
chunks, a read with room for a byte takes some of those that are there, and one that gets nothing
comes after the sender is gone and every chunk was read. -/
theorem stdin_read_exact {s : Reading} (h : Reachable Reading.Init Reading.Next s) (room : ℕ)
    (hroom : 0 < room) :
    s.read ++ s.stdin.unread = s.sent.flatten ∧
      (s.stdin.unread ≠ [] → ∃ data ≠ [], (pollRead room s.stdin).1 = .ready data) ∧
      ((pollRead room s.stdin).1 = .ready [] →
        s.stdin.closed = true ∧ s.read = s.sent.flatten) := by
  have hbytes := Reading.reachable_bytes h
  have hspec := pollRead_spec room s.stdin
  refine ⟨hbytes, hspec.some_read hroom, ?_⟩
  intro hend
  have hnil : s.stdin.unread = [] := by
    by_contra hunread
    obtain ⟨data, hdata, hready⟩ := hspec.some_read hroom hunread
    rw [hend] at hready
    exact hdata (Poll.ready.inj hready).symm
  constructor
  · have hnone := hspec.none_left hnil
    rw [hend] at hnone
    by_contra hopen
    rw [if_neg hopen] at hnone
    cases hnone
  · rw [hnil, List.append_nil] at hbytes
    exact hbytes

/-- A chunk is read in two pieces, an empty one is passed over, and the end comes last. -/
theorem stdin_read_exact_pieces : ∃ s : Reading, Reachable Reading.Init Reading.Next s ∧
    s.sent = [[1, 2, 3], []] ∧ s.read = [1, 2, 3] ∧ (pollRead 2 s.stdin).1 = .ready [] ∧
      s.read = s.sent.flatten := by
  have h₀ : Reachable Reading.Init Reading.Next {} := .init rfl
  have h₁ := h₀.step (.send [1, 2, 3] rfl (by decide))
  have h₂ := h₁.step (.send [] rfl (by decide))
  have h₃ := (h₂.step (.read 2)).step (.read 2)
  have h₄ := h₃.step .close
  exact ⟨_, h₄, rfl, rfl, by decide, ((stdin_read_exact h₄ 2 (by decide)).2.2 (by decide)).2⟩

/-! ## The credit of a client -/

/-- `WINDOW_SIZE`. -/
def windowSize : ℕ := 32 * 1024

/-- `data_bytes.len().try_into().unwrap_or_default()`. -/
def lenOf (d : Chunk) : ℤ := (checked 32 d.length).getD 0

/-- The window before a receive. -/
def topUp (window : ℤ) : ℤ :=
  if window < windowSize then wrapping 32 (window + windowSize) else window

/-- The window after a chunk. -/
def drawDown (window : ℤ) (d : Chunk) : ℤ := wrapping 32 (window - lenOf d)

/-- A handler and its client: whether the handler stands before a receive, its window, what it has
granted and received, and what the client has sent and is still on its way. -/
structure Flow where
  receiving : Bool := false
  window : ℤ := 0
  granted : ℕ := 0
  received : ℕ := 0
  sent : ℕ := 0
  inFlight : List Chunk := []

/-- The handler grants a window or goes on without, it receives a chunk, or the client sends one
for which it has the credit. -/
inductive Flow.Next : Flow → Flow → Prop where
  | grant {s : Flow} (h : s.receiving = false) (hw : s.window < windowSize) :
      Next s { s with
        receiving := true, window := topUp s.window, granted := s.granted + windowSize }
  | goOn {s : Flow} (h : s.receiving = false) (hw : ¬ s.window < windowSize) :
      Next s { s with receiving := true, window := topUp s.window }
  | recv {s d ds} (h : s.receiving = true) (hd : s.inFlight = d :: ds) :
      Next s { s with
        receiving := false, window := drawDown s.window d, received := s.received + d.length
        inFlight := ds }
  | send {s} (d : Chunk) (hcredit : s.sent + d.length ≤ s.granted) :
      Next s { s with sent := s.sent + d.length, inFlight := s.inFlight ++ [d] }

def Flow.Init : StatePred Flow := fun s => s = {}

structure Flow.Inv (s : Flow) : Prop where
  sent : s.sent = s.received + s.inFlight.flatten.length
  credit : s.sent ≤ s.granted
  window : s.window = s.granted - s.received
  upper : s.granted < s.received + 2 * windowSize
  lower : s.receiving = true → s.received + windowSize ≤ s.granted

theorem fits_of_lt {n : ℤ} (h0 : 0 ≤ n) (h : n < 3 * windowSize) : Fits 32 n := by
  unfold windowSize at h
  constructor
  · omega
  · omega

theorem topUp_of_lt {window : ℤ} (h0 : 0 ≤ window) (h : window < windowSize) :
    topUp window = window + windowSize := by
  rw [topUp, if_pos h]
  exact wrapping_of_fits (by decide) (fits_of_lt (by omega) (by omega))

theorem drawDown_of_le {window : ℤ} {d : Chunk} (hlen : d.length ≤ window)
    (h : window < 2 * windowSize) : drawDown window d = window - d.length := by
  have hd : lenOf d = d.length := by
    rw [lenOf, checked_of_fits (fits_of_lt (by omega) (by omega))]
    rfl
  rw [drawDown, hd]
  exact wrapping_of_fits (by decide) (fits_of_lt (by omega) (by omega))

theorem Flow.init_inv {s : Flow} (h : Flow.Init s) : s.Inv := by
  subst h
  exact ⟨rfl, Nat.le_refl 0, rfl, by decide, by decide⟩

theorem Flow.step_inv {s s' : Flow} (hnext : Flow.Next s s') (hinv : s.Inv) : s'.Inv := by
  obtain ⟨hsent, hcredit, hwindow, hupper, hlower⟩ := hinv
  cases hnext with
  | grant h hw =>
    -- less than a window was left, so less than two are now
    refine ⟨hsent, by simp only; omega, ?_, by simp only; omega, fun _ => by simp only; omega⟩
    simp only
    rw [topUp_of_lt (by omega) hw, Nat.cast_add]
    omega
  | goOn h hw =>
    refine ⟨hsent, hcredit, ?_, hupper, fun _ => by simp only; omega⟩
    simp only [topUp]
    rw [if_neg hw]
    exact hwindow
  | @recv d ds h hd =>
    -- what is received was sent on credit
    rw [hd, List.flatten_cons, List.length_append] at hsent
    refine ⟨by simp only; omega, hcredit, ?_, by simp only; omega, fun h => by cases h⟩
    simp only
    rw [drawDown_of_le (by omega) (by omega), Nat.cast_add]
    omega
  | send d hd =>
    refine ⟨?_, hd, hwindow, hupper, hlower⟩
    simp only [List.flatten_append, List.length_append, List.flatten_singleton]
    omega

/-- Of a client that keeps to its credit: before every receive the credit that is out is one window
at least and less than two, and what is on its way is part of it. The window is that credit, and
neither a grant nor the next chunk overflows it. -/
theorem stdin_credit_bounded {s : Flow} (h : Reachable Flow.Init Flow.Next s) :
    s.window = s.granted - s.received ∧ Fits 32 (s.window + windowSize) ∧
      (∀ d ∈ s.inFlight.head?, lenOf d = d.length ∧ Fits 32 (s.window - d.length)) ∧
      (s.receiving = true →
        s.received + windowSize ≤ s.granted ∧ s.granted < s.received + 2 * windowSize ∧
          s.inFlight.flatten.length ≤ s.granted - s.received) := by
  have hinv : s.Inv := h.invariant (fun t => @Flow.init_inv t) fun t t' => @Flow.step_inv t t'
  obtain ⟨hsent, hcredit, hwindow, hupper, hlower⟩ := hinv
  refine ⟨hwindow, fits_of_lt (by omega) (by omega), ?_, fun hr => ⟨hlower hr, hupper, by omega⟩⟩
  intro d hd
  obtain ⟨ds, hds⟩ := List.head?_eq_some_iff.mp hd
  rw [hds, List.flatten_cons, List.length_append] at hsent
  constructor
  · rw [lenOf, checked_of_fits (fits_of_lt (by omega) (by omega))]
    rfl
  · exact fits_of_lt (by omega) (by omega)

/-- The first window, and a chunk of two bytes on its way. -/
theorem stdin_credit_bounded_first : ∃ s : Flow, Reachable Flow.Init Flow.Next s ∧
    s.receiving = true ∧ s.inFlight = [[1, 2]] ∧ s.window = s.granted - s.received ∧
      s.received + windowSize ≤ s.granted := by
  have h₀ : Reachable Flow.Init Flow.Next {} := .init rfl
  have h₁ := h₀.step (.grant rfl (by decide))
  have h₂ := h₁.step (.send [1, 2] (by decide))
  obtain ⟨hwindow, -, -, hbounds⟩ := stdin_credit_bounded h₂
  exact ⟨_, h₂, rfl, rfl, hwindow, (hbounds rfl).1⟩

/-! ## Attaching -/

inductive Received where
  | error
  | closed
  | data (decoded : Option Chunk)

/-- What happens in one turn of the loop of `handle_stdin`: whether the window update is written and
sent, what is received, and whether the channel takes the chunk. -/
structure Turn where
  written : Bool := true
  updated : Bool := true
  received : Received
  delivered : Bool := true

inductive Exit where
  | attached
  | writeFailed
  | updateFailed
  | recvFailed
  | decodeFailed
  | sendFailed
  | closed
  deriving DecidableEq

/-- The loop of `handle_stdin`, with the chunks that it sends to the channel. -/
def handleLoop (window : ℤ) : List Turn → Exit × List Chunk
  | [] => (.attached, [])
  | turn :: turns =>
    if window < windowSize ∧ turn.written = false then (.writeFailed, [])
    else if window < windowSize ∧ turn.updated = false then (.updateFailed, [])
    else
      match turn.received with
      | .error => (.recvFailed, [])
      | .closed => (.closed, [])
      | .data none => (.decodeFailed, [])
      | .data (some d) =>
        if turn.delivered then
          let (exit, chunks) := handleLoop (drawDown (topUp window) d) turns
          (exit, d :: chunks)
        else (.sendFailed, [])

/-- A stream that has ended. -/
structure Stream where
  turns : List Turn
  ended : (handleLoop 0 turns).1 ≠ .attached

def Stream.exit (stream : Stream) : Exit := (handleLoop 0 stream.turns).1

def Stream.chunks (stream : Stream) : List Chunk := (handleLoop 0 stream.turns).2

/-- An id: its channel in the service, and whether the sender is in it; the chunks that were sent
to the channel; whether the container has seen the end. -/
structure Service where
  channel : Option Bool := none
  sent : List Chunk := []
  eof : Bool := false

/-- `get_or_insert_sender`. -/
def Service.getOrInsertSender (s : Service) : Option Service :=
  match s.channel with
  | none => some { s with channel := some false, sent := [] }
  | some true => some { s with channel := some false }
  | some false => none

/-- `handle_stdin`: who drops the sender ends the input of the container. -/
def Service.handleStdin (s : Service) (stream : Stream) : Service :=
  match s.getOrInsertSender with
  | none => s
  | some s =>
    let s := { s with sent := s.sent ++ stream.chunks }
    match stream.exit with
    | .attached => s
    | .writeFailed | .updateFailed => { s with channel := some true }
    | .recvFailed | .decodeFailed | .sendFailed => { s with eof := true }
    | .closed => { s with channel := none, eof := true }

def Service.after (streams : List Stream) : Service := streams.foldl Service.handleStdin {}

/-- The container has seen the end only if a stream was closed; if none was, one more can attach,
and what the container gets is what the streams have brought. -/
structure Continues (streams : List Stream) (s : Service) : Prop where
  eof : s.eof = true → ∃ stream ∈ streams, stream.exit = .closed
  attach : (∀ stream ∈ streams, stream.exit ≠ .closed) →
    s.getOrInsertSender.isSome = true ∧ s.sent = streams.flatMap Stream.chunks

/-- The sender goes back to the channel. -/
def Stream.HandsBack (stream : Stream) : Prop :=
  stream.exit = .writeFailed ∨ stream.exit = .updateFailed

theorem Service.isSome_getOrInsertSender {s : Service} :
    s.getOrInsertSender.isSome = true ↔ s.channel ≠ some false := by
  unfold getOrInsertSender
  rcases s.channel with _ | _ | _ <;> simp

theorem Service.after_concat (streams : List Stream) (stream : Stream) :
    after (streams ++ [stream]) = (after streams).handleStdin stream := by
  rw [after, List.foldl_append]
  rfl

/-- A stream that attaches and drops the sender without being closed. -/
theorem Service.handleStdin_drops {s : Service} {stream : Stream}
    (hs : s.getOrInsertSender.isSome = true) (hback : ¬ stream.HandsBack) :
    (s.handleStdin stream).eof = true := by
  obtain ⟨t, ht⟩ := Option.isSome_iff_exists.mp hs
  have hended : stream.exit ≠ .attached := stream.ended
  unfold handleStdin
  rw [ht]
  cases hexit : stream.exit with
  | attached => exact absurd hexit hended
  | writeFailed => exact absurd (Or.inl hexit) hback
  | updateFailed => exact absurd (Or.inr hexit) hback
  | recvFailed | decodeFailed | sendFailed | closed => rfl

theorem Service.after_handsBack {streams : List Stream} (h : ∀ s ∈ streams, s.HandsBack) :
    (after streams).eof = false ∧ (after streams).channel ≠ some false ∧
      ((after streams).channel = none → streams = []) ∧
      (after streams).sent = streams.flatMap Stream.chunks := by
  induction streams using List.reverseRecOn with
  | nil => exact ⟨rfl, by decide, fun _ => rfl, rfl⟩
  | append_singleton streams stream ih =>
    obtain ⟨heof, hchannel, hnone, hsent⟩ :=
      ih fun s hs => h s (List.mem_append_left [stream] hs)
    rw [after_concat, List.flatMap_append, ← hsent]
    have hback := h stream (by simp)
    generalize hafter : after streams = s at heof hchannel hnone hsent
    obtain ⟨channel, sent, eof⟩ := s
    cases heof
    rcases channel with _ | _ | _
    · -- the first stream makes the channel
      cases hnone rfl
      cases hsent
      rcases hback with hexit | hexit <;>
        simp [handleStdin, getOrInsertSender, hexit]
    · exact absurd rfl hchannel
    · rcases hback with hexit | hexit <;>
        simp [handleStdin, getOrInsertSender, hexit]

/-- Streams attached one after another keep the input of the container going until one is closed if
and only if each of those before it hands the sender back. -/
theorem stdin_continues_iff (streams : List Stream) :
    (∀ earlier, earlier <+: streams → Continues earlier (Service.after earlier)) ↔
      ∀ stream ∈ streams.takeWhile (·.exit ≠ .closed), stream.HandsBack := by
  constructor
  · intro hall stream hstream
    obtain ⟨pre, post, hsplit⟩ := List.append_of_mem hstream
    have hwhile : pre ++ [stream] <+: streams.takeWhile (·.exit ≠ .closed) := by
      rw [hsplit, List.append_cons pre stream post]
      exact List.prefix_append _ post
    have hpre : pre ++ [stream] <+: streams := hwhile.trans ( List.takeWhile_prefix _)
    have hopen : ∀ s ∈ pre ++ [stream], s.exit ≠ .closed := by
      intro s hs
      have hp := List.mem_takeWhile_imp (hwhile.subset hs)
      exact of_decide_eq_true hp
    by_contra hback
    have hattach := (hall pre ((List.prefix_append pre [stream]).trans hpre)).attach fun s hs =>
      hopen s (List.mem_append_left [stream] hs)
    obtain ⟨s, hs, hclosed⟩ := (hall _ hpre).eof (by
      rw [Service.after_concat]
      exact Service.handleStdin_drops hattach.1 hback)
    exact hopen s hs hclosed
  · intro hback earlier hearlier
    by_cases hclosed : ∃ s ∈ earlier, s.exit = .closed
    · refine ⟨fun _ => hclosed, fun hopen => ?_⟩
      obtain ⟨s, hs, hexit⟩ := hclosed
      exact absurd hexit (hopen s hs)
    · push Not at hclosed
      have hwhile : earlier <+: streams.takeWhile (·.exit ≠ .closed) := by
        obtain ⟨later, rfl⟩ := hearlier
        rw [List.takeWhile_append_of_pos fun s hs => decide_eq_true (hclosed s hs)]
        exact List.prefix_append _ _
      obtain ⟨heof, hchannel, -, hsent⟩ :=
        Service.after_handsBack fun s hs => hback s (hwhile.subset hs)
      refine ⟨fun h => ?_, fun _ => ⟨Service.isSome_getOrInsertSender.mpr hchannel, hsent⟩⟩
      rw [heof] at h
      cases h

/-- The first receive fails: no stream was closed, and the container sees the end of its input. -/
theorem stdin_ends_unclosed :
    let stream : Stream := ⟨[{ received := .error }], by decide⟩
    stream.exit = .recvFailed ∧ (Service.after [stream]).eof = true ∧
      (Service.after [stream]).getOrInsertSender.isNone = true := by
  decide

end Kuasar.Streaming

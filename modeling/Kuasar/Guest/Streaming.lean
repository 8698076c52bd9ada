import Kuasar.Tla.Tasks

/-!
# Guest.Streaming — the output of a container and the streams that carry it

What a container writes is queued in a channel. One stream at a time holds the receiver of the
channel: it takes chunks from the queue and sends them to its client. A stream that attaches takes
the receiver if it is free; else it sends the holder a preemption message and waits until the
receiver was returned. A chunk whose send failed is returned with the receiver and kept for the next
holder, which sends it first.

Taking the receiver, taking the kept chunk and returning both are three separate sections under the
lock of the channels, and streams interleave between them. No chunk is lost or sent twice by what
they do (`output_conserved`): what was sent, the chunk that is kept or in the hands of a stream, and
the queue are what was written. But the task that copies the output removes the channel once the
output has ended, whatever is left in it, and with the channel goes the sender of the preemption
messages: the holder takes this for a preemption, and drops the receiver that it cannot return
(`removed_channel_loses_output`).
-/

namespace Kuasar.Streaming

open Tla

abbrev Chunk := List UInt8

variable {β : Type}

/-- The receivers of a channel and of a preemption channel, by number. The output of the container
goes to channel 0. -/
structure PreemptableReceiver where
  receiver : ℕ
  preempt : ℕ
  deriving DecidableEq, Repr

/-- A channel with its number, which is also that of its notifier. -/
structure IOChannel (β : Type) where
  number : ℕ
  receiver : Option ℕ
  remainingData : Option β := none
  preemptionSender : Option ℕ := none

def IOChannel.new (n : ℕ) : IOChannel β := { number := n, receiver := some n }

/-- The task that copies the output: it copies, has dropped its sender, has removed the channel. -/
inductive Writer where
  | copying
  | ended
  | gone
  deriving DecidableEq, Repr

/-- The entry of the stream in the map `ios`, the queue of channel 0, the notifiers that have a
permit, and how many channels were made after the first and how many preemption channels. `dropped`
says that the receiver of channel 0 is. Kept for the proof: what was written and what was sent. -/
structure Output (β : Type) where
  io : Option (IOChannel β) := some (.new 0)
  queue : List Chunk := []
  writer : Writer := .copying
  dropped : Bool := false
  notified : ℕ → Bool := fun _ => false
  channels : ℕ := 0
  preemptions : ℕ := 0
  written : List Chunk := []
  sent : List β := []

namespace Output

variable (g : Output β)

/-- `ios.entry(id).or_insert(IOChannel::new())`. The sender of a new channel stays in it, so nothing
is ever queued there. -/
def orInsert : Output β :=
  if g.io.isSome then g
  else { g with io := some (.new (g.channels + 1)), channels := g.channels + 1 }

/-- The receiver in the channel. -/
def idle : Option ℕ := g.io.bind (·.receiver)

def kept : Option β := g.io.bind (·.remainingData)

/-- A receiver is dropped, with what is queued. -/
def dropReceiver (r : Option ℕ) : Output β :=
  if r = some 0 then { g with queue := [], dropped := true } else g

end Output

/-- The receivers of the output among `r`: one or none. -/
def outputs (r : Option ℕ) : ℕ := if r = some 0 then 1 else 0

/-- The size of the queue. -/
def capacity : ℕ := 128

/-- How often a stream tries to get the receiver. -/
def attempts : ℕ := 10

/-- Where a stream stands in `handle_stdout`: before its `i`-th look at the channel, waiting after
it for the notifier `n`, with the receiver and before it looks for a kept chunk, before the next
chunk, before the send of one, and before it returns the receiver. -/
inductive Pc (β : Type) where
  | idle
  | attempting (i : ℕ)
  | waiting (i n : ℕ)
  | acquired (r : PreemptableReceiver)
  | looping (r : PreemptableReceiver)
  | sending (r : PreemptableReceiver) (a : β)
  | returning (r : PreemptableReceiver) (remaining : Option β)

namespace Pc

def receiver : Pc β → Option ℕ
  | .idle | .attempting _ | .waiting _ _ => none
  | .acquired r | .looping r | .sending r _ | .returning r _ => some r.receiver

/-- Whether the stream has the receiver of the output. -/
def holds (pc : Pc β) : ℕ := outputs pc.receiver

/-- The chunk that a stream has taken and not sent. -/
def hand : Pc β → List β
  | .sending _ a => [a]
  | .returning _ remaining => remaining.toList
  | _ => []

end Pc

/-- One step of one stream; `marshal` makes a message of a chunk. -/
inductive Step (marshal : Chunk → Option β) : Output β → Pc β → Output β → Pc β → Prop where
  | attach {g} : Step marshal g .idle g (.attempting 0)
  -- `get_or_preempt_receiver`; a preemption sender that is replaced is dropped
  | take {g e i n} (h : g.orInsert.io = some e) (hr : e.receiver = some n) :
      Step marshal g (.attempting i)
        { g.orInsert with
          io := some { e with receiver := none, preemptionSender := some g.preemptions },
          preemptions := g.preemptions + 1 }
        (.acquired ⟨n, g.preemptions⟩)
  | preempt {g e i} (h : g.orInsert.io = some e) (hr : e.receiver = none) :
      Step marshal g (.attempting i)
        { g.orInsert with io := some { e with preemptionSender := none } } (.waiting i e.number)
  | wake {g i n} (h : g.notified n = true) (hi : i + 1 < attempts) :
      Step marshal g (.waiting i n) { g with notified := Function.update g.notified n false }
        (.attempting (i + 1))
  | giveUp {g i n} (h : g.notified n = true) (hi : attempts ≤ i + 1) :
      Step marshal g (.waiting i n) { g with notified := Function.update g.notified n false } .idle
  -- `get_remaining_data`
  | remaining {g e r a} (h : g.io = some e) (ha : e.remainingData = some a) :
      Step marshal g (.acquired r) { g with io := some { e with remainingData := none } }
        (.sending r a)
  | noRemaining {g r} (h : g.kept = none) : Step marshal g (.acquired r) g (.looping r)
  | sent {g r a} : Step marshal g (.sending r a) { g with sent := g.sent ++ [a] } (.looping r)
  | sendFails {g r a} : Step marshal g (.sending r a) g (.returning r (some a))
  | recv {g p d ds a} (h : g.queue = d :: ds) (hd : d ≠ []) (ha : marshal d = some a) :
      Step marshal g (.looping ⟨0, p⟩) { g with queue := ds } (.sending ⟨0, p⟩ a)
  | marshalFails {g p d ds} (h : g.queue = d :: ds) (hd : d ≠ []) (ha : marshal d = none) :
      Step marshal g (.looping ⟨0, p⟩) { g with queue := ds } (.returning ⟨0, p⟩ none)
  -- an empty chunk ends the stream, and the receiver goes with it
  | recvEmpty {g p ds} (h : g.queue = [] :: ds) :
      Step marshal g (.looping ⟨0, p⟩) (g.dropReceiver (some 0)) .idle
  | ended {g p} (h : g.queue = []) (hended : g.writer ≠ .copying) :
      Step marshal g (.looping ⟨0, p⟩) (g.dropReceiver (some 0)) .idle
  -- a preemption message has come, or the sender of the messages was dropped
  | preempted {g r} (h : g.io.bind (·.preemptionSender) ≠ some r.preempt) :
      Step marshal g (.looping r) g (.returning r none)
  -- `return_preempted_receiver`; without a channel the receiver and the chunk are dropped
  | giveBack {g e r remaining} (h : g.io = some e) :
      Step marshal g (.returning r remaining)
        { g.dropReceiver e.receiver with
          io := some { e with receiver := some r.receiver, remainingData := remaining },
          notified := Function.update g.notified e.number true }
        .idle
  | giveBackRemoved {g r remaining} (h : g.io = none) :
      Step marshal g (.returning r remaining) (g.dropReceiver (some r.receiver)) .idle

inductive Label where
  | write (d : Chunk)
  | close
  | remove
  | stream (i : ℕ)

abbrev St (β : Type) := Sys (Output β) (Pc β)

/-- The container writes a chunk, which is not empty; its output ends, and then the channel is
removed; or stream `i` takes a step. -/
inductive next (marshal : Chunk → Option β) : Label → St β → St β → Prop where
  | write {s d} (hd : d ≠ []) (hopen : s.shared.writer = .copying)
      (hroom : s.shared.queue.length < capacity) (hdropped : s.shared.dropped = false) :
      next marshal (.write d) s { s with shared := { s.shared with
        queue := s.shared.queue ++ [d], written := s.shared.written ++ [d] } }
  | close {s} (h : s.shared.writer = .copying) :
      next marshal .close s { s with shared := { s.shared with writer := .ended } }
  -- `remove_io_channel`
  | remove {s} (h : s.shared.writer = .ended) :
      next marshal .remove s { s with shared := { s.shared.dropReceiver s.shared.idle with
        io := none, writer := .gone } }
  | stream {s s' i} (h : TaskStep (Step marshal) i s s') : next marshal (.stream i) s s'

/-- A new channel. -/
def Init : StatePred (St β) := fun s => s.shared = {} ∧ ∀ pc ∈ s.tasks, pc = .idle

/-! ## The property -/

/-- The chunk that is kept, in the channel or in the hands of a stream. -/
def retained (s : St β) : List β := s.shared.kept.toList ++ s.tasks.flatMap Pc.hand

/-- What was sent, the chunk that is kept and what is queued are what was written; no two streams
have the receiver, and none has it while it is in the channel. -/
structure Conserved (marshal : Chunk → Option β) (s : St β) : Prop where
  chunks : s.shared.sent.map some ++ (retained s).map some ++ s.shared.queue.map marshal =
    s.shared.written.map marshal
  one : (retained s).length ≤ 1
  single : ∀ (i j : ℕ) (pc pc' : Pc β), s.tasks[i]? = some pc → s.tasks[j]? = some pc' →
    pc.holds = 1 → pc'.holds = 1 → i = j
  taken : ∀ pc ∈ s.tasks, pc.holds = 1 → s.shared.idle ≠ some 0

/-- The channel is removed when no chunk is left: none is queued, kept or in the hands of a
stream. -/
def Delivered : Label → StatePred (St β)
  | .remove, s => s.shared.queue = [] ∧ retained s = []
  | _, _ => True

/-! ## The receiver -/

variable {marshal : Chunk → Option β} {g g' : Output β} {s s' : St β} {i : ℕ} {pc pc' : Pc β}

namespace Output

/-- The receiver of the output is in the channel, or dropped. -/
def rest (g : Output β) : ℕ := outputs g.idle + g.dropped.toNat

@[simp] theorem orInsert_of_some {e : IOChannel β} (h : g.io = some e) : g.orInsert = g := by
  simp [orInsert, h]

theorem rest_orInsert : g.orInsert.rest = g.rest := by
  cases h : g.io with
  | none => simp [orInsert, rest, idle, outputs, IOChannel.new, h]
  | some e => rw [orInsert_of_some h]

theorem orInsert_frame : g.orInsert.kept = g.kept ∧ g.orInsert.sent = g.sent ∧
    g.orInsert.queue = g.queue ∧ g.orInsert.written = g.written := by
  cases h : g.io with
  | none => simp [orInsert, kept, IOChannel.new, h]
  | some e => simp [orInsert_of_some h]

theorem rest_eq {e : IOChannel β} (h : g.io = some e) :
    g.rest = outputs e.receiver + g.dropped.toNat := by
  simp [rest, idle, h]

theorem dropped_dropReceiver {r : Option ℕ} (h : outputs r + g.dropped.toNat ≤ 1) :
    (g.dropReceiver r).dropped.toNat = outputs r + g.dropped.toNat := by
  unfold dropReceiver outputs at *
  split at h
  · have : g.dropped.toNat = 0 := by omega
    simp_all
  · simp_all

theorem dropReceiver_frame (r : Option ℕ) :
    (g.dropReceiver r).io = g.io ∧ (g.dropReceiver r).writer = g.writer ∧
      (g.dropReceiver r).sent = g.sent ∧ (g.dropReceiver r).written = g.written := by
  unfold dropReceiver
  split <;> exact ⟨rfl, rfl, rfl, rfl⟩

theorem rest_dropReceiver {r : Option ℕ} (h : outputs r + g.rest ≤ 1) :
    (g.dropReceiver r).rest = outputs r + g.rest := by
  unfold rest idle at h ⊢
  rw [(dropReceiver_frame r).1, dropped_dropReceiver (by omega)]
  omega

end Output

open Output

/-- The receiver of the output stays one receiver. -/
theorem Step.moves (h : Step marshal g pc g' pc') (hone : pc.holds + g.rest ≤ 1) :
    pc'.holds + g'.rest = pc.holds + g.rest := by
  cases h with
  | take h hr =>
    rw [← @rest_orInsert _ g, rest_eq h, hr, rest_eq rfl]
    simp [Pc.holds, Pc.receiver, outputs]
  | preempt h hr =>
    rw [← @rest_orInsert _ g, rest_eq h, rest_eq rfl]
    rfl
  | remaining h =>
    rw [rest_eq h, rest_eq rfl]
    rfl
  | recvEmpty | ended | giveBackRemoved =>
    exact (Nat.zero_add _).trans (rest_dropReceiver hone)
  | giveBack h =>
    rw [rest_eq h] at hone ⊢
    have hdrop := dropped_dropReceiver (g := g) (Nat.le_trans (Nat.le_add_left _ _) hone)
    rw [rest_eq rfl, hdrop]
    exact Nat.zero_add _
  | attach | wake | giveUp | noRemaining | sent | sendFails | recv | marshalFails | preempted => rfl

/-- Before the channel is removed it is in the map, and the only receiver is that of the output. -/
def Early (g : Output β) (pc : Pc β) : Prop :=
  g.io.isSome ∧ (∀ n, g.idle = some n → n = 0) ∧ ∀ n, pc.receiver = some n → n = 0

theorem Step.early (h : Step marshal g pc g' pc') (hearly : Early g pc) : Early g' pc' := by
  obtain ⟨hio, hidle, hpc⟩ := hearly
  obtain ⟨e, he⟩ := Option.isSome_iff_exists.mp hio
  cases h with
  | take h hr =>
    rw [orInsert_of_some he, he] at h
    cases h
    refine ⟨rfl, nofun, ?_⟩
    rintro _ ⟨⟩
    exact hidle _ (by simp [idle, he, hr])
  | preempt h hr =>
    rw [orInsert_of_some he, he] at h
    cases h
    refine ⟨rfl, ?_, nofun⟩
    intro n hn
    exact hidle n (by simpa [idle, he] using hn)
  | remaining h =>
    refine ⟨rfl, ?_, hpc⟩
    intro n hn
    exact hidle n (by simpa [idle, h] using hn)
  | giveBack h =>
    refine ⟨rfl, ?_, nofun⟩
    rintro n ⟨⟩
    exact hpc _ rfl
  | giveBackRemoved h =>
    rw [he] at h
    cases h
  | recvEmpty | ended =>
    simp only [Early, idle, (dropReceiver_frame _).1]
    exact ⟨hio, hidle, nofun⟩
  | attach | wake | giveUp => exact ⟨hio, hidle, nofun⟩
  | noRemaining | sent | sendFails | recv | marshalFails | preempted => exact ⟨hio, hidle, hpc⟩

theorem Step.writer_eq (h : Step marshal g pc g' pc') : g'.writer = g.writer := by
  have hinsert : g.orInsert.writer = g.writer := by
    unfold orInsert
    split <;> rfl
  cases h with
  | take | preempt => exact hinsert
  | recvEmpty | ended | giveBack | giveBackRemoved => exact (dropReceiver_frame _).2.1
  | _ => rfl

/-! ## The invariant -/

/-- The stream looked for a kept chunk. -/
def Pc.Past : Pc β → Prop
  | .looping _ | .sending _ _ | .returning _ _ => True
  | _ => False

/-- The receiver is with one stream, in the channel or dropped; whoever has looked for a kept chunk
has taken it; no chunk is empty; and once the channel was removed, no chunk is left. -/
structure Inv (marshal : Chunk → Option β) (s : St β) : Prop where
  chunks : s.shared.sent.map some ++ (retained s).map some ++ s.shared.queue.map marshal =
    s.shared.written.map marshal
  one : (s.tasks.map Pc.holds).sum + s.shared.rest = 1
  past : ∀ pc ∈ s.tasks, pc.Past → s.shared.kept = none
  nonempty : ∀ d ∈ s.shared.queue, d ≠ []
  early : s.shared.writer ≠ .gone → ∀ pc ∈ s.tasks, Early s.shared pc
  late : s.shared.writer = .gone → s.shared.queue = [] ∧ retained s = []

theorem retained_eq_nil :
    retained s = [] ↔ s.shared.kept = none ∧ ∀ pc ∈ s.tasks, pc.hand = [] := by
  simp [retained, List.flatMap_eq_nil_iff]

theorem init_inv (h : Init s) : Inv marshal s := by
  obtain ⟨hshared, hidle⟩ := h
  have hnil : retained s = [] := by
    refine retained_eq_nil.mpr ⟨by rw [hshared]; rfl, ?_⟩
    intro pc hpc
    rw [hidle pc hpc]
    rfl
  refine ⟨?_, ?_, ?_, ?_, ?_, ?_⟩
  · rw [hnil, hshared]
    rfl
  · rw [sum_weight_idle (w := Pc.holds) rfl hidle, hshared]
    rfl
  · intro pc hpc hpast
    rw [hidle pc hpc] at hpast
    exact hpast.elim
  · rw [hshared]
    simp
  · intro _ pc hpc
    rw [hidle pc hpc, hshared]
    refine ⟨rfl, ?_, nofun⟩
    rintro n ⟨⟩
    rfl
  · rw [hshared]
    nofun

/-- While one stream has the receiver, no other has it. -/
theorem Inv.alone (hinv : Inv marshal s) (hi : s.tasks[i]? = some pc) (hholds : pc.holds = 1) :
    s.shared.rest = 0 ∧ ∀ (j : ℕ) (m : Pc β), j ≠ i → s.tasks[j]? = some m → m.holds = 0 := by
  have hone := hinv.one
  have hle := weight_le_sum (w := Pc.holds) hi
  refine ⟨by omega, ?_⟩
  intro j m hji hj
  have := weight_add_le_sum (w := Pc.holds) hji hj hi
  omega

/-- Before the channel is removed, every stream that has a receiver has that of the output. -/
theorem Early.holds (h : Early g pc) : pc.holds = 0 ∧ pc.receiver = none ∨ pc.holds = 1 := by
  obtain ⟨-, -, hpc⟩ := h
  unfold Pc.holds outputs
  cases hr : pc.receiver with
  | none => simp
  | some n => simp [hpc n hr]

theorem Pc.hand_of_receiver (h : pc.receiver = none) : pc.hand = [] := by
  cases pc with
  | idle | attempting | waiting => rfl
  | acquired | looping | sending | returning => cases h

theorem Pc.receiver_of_past (h : pc.Past) : pc.receiver ≠ none := by
  cases pc with
  | looping | sending | returning => nofun
  | idle | attempting | waiting | acquired => exact h.elim

/-- Then the other streams have no receiver. -/
theorem Inv.others (hinv : Inv marshal s) (hw : s.shared.writer ≠ .gone)
    (hi : s.tasks[i]? = some pc) (hholds : pc.holds = 1) (j : ℕ) (m : Pc β) (hji : j ≠ i)
    (hj : s.tasks[j]? = some m) : m.receiver = none := by
  have hzero := (hinv.alone hi hholds).2 j m hji hj
  rcases (hinv.early hw m (List.mem_of_getElem? hj)).holds with ⟨-, hnone⟩ | hone
  · exact hnone
  · omega

/-- The chunks, where one stream alone has some. -/
def Chunks (marshal : Chunk → Option β) (g : Output β) (pc : Pc β) : Prop :=
  g.sent.map some ++ (g.kept.toList ++ pc.hand).map some ++ g.queue.map marshal =
    g.written.map marshal

/-- A stream without a receiver, or when no chunk is left, leaves the chunks alone. -/
theorem Step.still (h : Step marshal g pc g' pc')
    (hpc : pc.receiver = none ∨ (g.queue = [] ∧ g.kept = none ∧ pc.hand = [])) :
    pc'.hand = pc.hand ∧ (pc'.Past → g'.kept = none) ∧ g'.kept = g.kept ∧ g'.sent = g.sent ∧
      g'.queue = g.queue ∧ g'.written = g.written := by
  have hdrop : ∀ r, g.queue = [] → (g.dropReceiver r).queue = g.queue := by
    intro r hqueue
    unfold dropReceiver
    split
    · exact hqueue.symm
    · rfl
  cases h with
  | take h | preempt h =>
    obtain ⟨hkept, hrest⟩ := @orInsert_frame _ g
    rw [kept, h] at hkept
    exact ⟨rfl, False.elim, hkept, hrest⟩
  | attach | wake | giveUp => exact ⟨rfl, False.elim, rfl, rfl, rfl, rfl⟩
  | remaining h ha => simp [kept, h, ha, Pc.receiver] at hpc
  | sent | sendFails => simp [Pc.hand, Pc.receiver] at hpc
  | recv h | marshalFails h | recvEmpty h => simp [h, Pc.receiver] at hpc
  | noRemaining h => exact ⟨rfl, fun _ => h, rfl, rfl, rfl, rfl⟩
  | preempted =>
    obtain ⟨-, hkept, -⟩ := hpc.resolve_left nofun
    exact ⟨rfl, fun _ => hkept, rfl, rfl, rfl, rfl⟩
  | ended | giveBackRemoved =>
    obtain ⟨hqueue, -, hhand⟩ := hpc.resolve_left nofun
    obtain ⟨hio, -, hs, hw⟩ := dropReceiver_frame (g := g) _
    exact ⟨hhand.symm, False.elim, by rw [kept, hio]; rfl, hs, hdrop _ hqueue, hw⟩
  | giveBack h =>
    obtain ⟨hqueue, hkept, hhand⟩ := hpc.resolve_left nofun
    obtain ⟨-, -, hs, hw⟩ := dropReceiver_frame (g := g) _
    rw [hkept, hhand]
    exact ⟨rfl, False.elim, Option.toList_eq_nil_iff.mp hhand, hs, hdrop _ hqueue, hw⟩

/-- The stream that has the receiver passes the chunks on. -/
theorem Step.passes (hmarshal : ∀ d, (marshal d).isSome) (h : Step marshal g pc g' pc')
    (hearly : Early g pc) (hholds : pc.holds = 1) (hrest : g.rest = 0)
    (hpast : pc.Past → g.kept = none) (hne : ∀ d ∈ g.queue, d ≠ [])
    (hchunks : Chunks marshal g pc) :
    Chunks marshal g' pc' ∧ (pc'.Past → g'.kept = none) ∧ ∀ d ∈ g'.queue, d ∈ g.queue := by
  cases h with
  | remaining h ha =>
    -- the kept chunk goes from the channel to the hands of the stream
    refine ⟨?_, fun _ => rfl, fun d hd => hd⟩
    simpa [Chunks, Pc.hand, kept, h, ha] using hchunks
  | noRemaining hn => exact ⟨hchunks, fun _ => hn, fun d hd => hd⟩
  | sent =>
    have hkept := hpast trivial
    refine ⟨?_, fun _ => hkept, fun d hd => hd⟩
    unfold Chunks at hchunks ⊢
    rw [hkept] at hchunks
    simpa [kept, Pc.hand, show g.io.bind (·.remainingData) = none from hkept] using hchunks
  | sendFails | preempted => exact ⟨hchunks, fun _ => hpast trivial, fun d hd => hd⟩
  | recv hq hd ha =>
    have hkept : g.io.bind (·.remainingData) = none := hpast trivial
    refine ⟨?_, fun _ => hkept, ?_⟩
    · simpa [Chunks, Pc.hand, kept, hkept, hq, ha] using hchunks
    · intro d hd
      rw [hq]
      exact List.mem_cons_of_mem _ hd
  | @marshalFails _ d _ hq hd ha =>
    have hsome := hmarshal d
    rw [ha] at hsome
    cases hsome
  | recvEmpty hq => exact absurd rfl (hne [] (by simp [hq]))
  | ended hq =>
    -- the queue is empty and the writer gone: the receiver is dropped with nothing in it
    refine ⟨?_, False.elim, ?_⟩
    · simpa [Chunks, dropReceiver, kept, Pc.hand, hq] using hchunks
    · simp [dropReceiver]
  | @giveBack e _ _ h =>
    -- nothing is in the channel, so what comes back overwrites nothing
    have hkept : g.io.bind (·.remainingData) = none := hpast trivial
    have hfree : e.receiver ≠ some 0 := by
      intro he
      simp [rest_eq h, outputs, he] at hrest
    simp only [dropReceiver, if_neg hfree]
    refine ⟨?_, False.elim, fun d hd => hd⟩
    simpa [Chunks, Pc.hand, kept, hkept] using hchunks
  | giveBackRemoved h => simp [Early, h] at hearly
  | attach | take | preempt | wake | giveUp => cases hholds

section

variable (hi : s.tasks[i]? = some pc) (hstep : Step marshal s.shared pc s'.shared pc')
  (htasks : s'.tasks = s.tasks.set i pc') (hinv : Inv marshal s)
include hi hstep htasks hinv

theorem holds_step : (s'.tasks.map Pc.holds).sum + s'.shared.rest = 1 := by
  have hsum := sum_weight_set (w := Pc.holds) pc' hi
  have hle := weight_le_sum (w := Pc.holds) hi
  have := hinv.one
  have := hstep.moves (by omega)
  rw [htasks]
  omega

theorem early_step (hw : s'.shared.writer ≠ .gone) : ∀ m ∈ s'.tasks, Early s'.shared m := by
  intro m hm
  rw [hstep.writer_eq] at hw
  obtain ⟨hio, hidle, hpc⟩ := hstep.early (hinv.early hw pc (List.mem_of_getElem? hi))
  rw [htasks] at hm
  rcases List.mem_or_eq_of_mem_set hm with hm | rfl
  · exact ⟨hio, hidle, (hinv.early hw m hm).2.2⟩
  · exact ⟨hio, hidle, hpc⟩

/-- A task without the receiver, and every task once the writer is gone, moves no data. -/
theorem still_step (hpc : pc.receiver = none ∨ s.shared.writer = .gone) : Inv marshal s' := by
  have hstill : pc.receiver = none ∨
      (s.shared.queue = [] ∧ s.shared.kept = none ∧ pc.hand = []) := by
    refine hpc.imp_right fun hw => ?_
    obtain ⟨hqueue, hnil⟩ := hinv.late hw
    obtain ⟨hkept, hhand⟩ := retained_eq_nil.mp hnil
    exact ⟨hqueue, hkept, hhand pc (List.mem_of_getElem? hi)⟩
  obtain ⟨hhand, hpast, hkept, hsent, hqueue, hwritten⟩ := hstep.still hstill
  have hretained : retained s' = retained s := by
    rw [retained, htasks, flatMap_set_of_eq hi hhand, hkept]
    rfl
  refine ⟨?_, holds_step hi hstep htasks hinv, ?_, ?_, early_step hi hstep htasks hinv, ?_⟩
  · rw [hretained, hsent, hqueue, hwritten]
    exact hinv.chunks
  · intro m hm hmp
    rw [htasks] at hm
    rcases List.mem_or_eq_of_mem_set hm with hm | rfl
    · rw [hkept]
      exact hinv.past m hm hmp
    · exact hpast hmp
  · rw [hqueue]
    exact hinv.nonempty
  · rw [hstep.writer_eq, hqueue, hretained]
    exact hinv.late

/-- The task with the receiver is the only one that has a chunk in hand. -/
theorem receiver_step (hmarshal : ∀ d, (marshal d).isSome) (hr : pc.receiver ≠ none)
    (hw : s.shared.writer ≠ .gone) : Inv marshal s' := by
  have hmem := List.mem_of_getElem? hi
  have hearly := hinv.early hw pc hmem
  have hholds : pc.holds = 1 := hearly.holds.resolve_left fun h => hr h.2
  have hothers := hinv.others hw hi hholds
  have hchunks : Chunks marshal s.shared pc := by
    have hflat : s.tasks.flatMap Pc.hand = pc.hand :=
      flatMap_of_alone hi fun j m hji hj => Pc.hand_of_receiver (hothers j m hji hj)
    rw [Chunks, ← hflat]
    exact hinv.chunks
  obtain ⟨hchunks', hpast, hqueue⟩ := hstep.passes hmarshal hearly hholds
    (hinv.alone hi hholds).1 (hinv.past pc hmem) hinv.nonempty hchunks
  have hflat : s'.tasks.flatMap Pc.hand = pc'.hand := by
    rw [htasks]
    refine flatMap_of_alone (List.getElem?_set_self (List.getElem?_eq_some_iff.mp hi).1) ?_
    intro j m hji hj
    rw [List.getElem?_set_ne hji.symm] at hj
    exact Pc.hand_of_receiver (hothers j m hji hj)
  refine ⟨?_, holds_step hi hstep htasks hinv, ?_, fun d hd => hinv.nonempty d (hqueue d hd),
    early_step hi hstep htasks hinv, fun h => absurd (hstep.writer_eq ▸ h) hw⟩
  · rw [retained, hflat]
    exact hchunks'
  · intro m hm hmp
    rw [htasks] at hm
    obtain ⟨j, hj⟩ := List.mem_iff_getElem?.mp hm
    rcases getElem?_set_cases hj with ⟨-, rfl⟩ | ⟨hji, hj⟩
    · exact hpast hmp
    · exact absurd (hothers j m hji hj) (Pc.receiver_of_past hmp)

end

theorem stream_inv (hmarshal : ∀ d, (marshal d).isSome) (h : TaskStep (Step marshal) i s s')
    (hinv : Inv marshal s) : Inv marshal s' := by
  obtain ⟨pc, pc', hi, hstep, htasks⟩ := h
  by_cases hpc : pc.receiver = none ∨ s.shared.writer = .gone
  · exact still_step hi hstep htasks hinv hpc
  · obtain ⟨hr, hw⟩ := not_or.mp hpc
    exact receiver_step hi hstep htasks hinv hmarshal hr hw

theorem step_inv (hmarshal : ∀ d, (marshal d).isSome) (l : Label) (s s' : St β)
    (hok : Delivered l s) (hnext : next marshal l s s') (hinv : Inv marshal s) :
    Inv marshal s' := by
  cases hnext with
  | @write _ d hd hopen =>
    refine ⟨?_, hinv.one, hinv.past, ?_, fun _ => hinv.early (by simp [hopen]), ?_⟩
    · have hchunks := congrArg (· ++ [marshal d]) hinv.chunks
      simpa [retained, kept] using hchunks
    · intro c hc
      rcases List.mem_append.mp hc with hc | hc
      · exact hinv.nonempty c hc
      · rw [List.mem_singleton.mp hc]
        exact hd
    · intro h
      rw [hopen] at h
      cases h
  | close h =>
    exact ⟨hinv.chunks, hinv.one, hinv.past, hinv.nonempty, fun _ => hinv.early (by simp [h]),
      nofun⟩
  | remove h =>
    obtain ⟨hqueue, hnil⟩ := hok
    obtain ⟨-, -, hsent, hwritten⟩ := dropReceiver_frame (g := s.shared) s.shared.idle
    have hqueue' : (s.shared.dropReceiver s.shared.idle).queue = [] := by
      unfold dropReceiver
      split
      · rfl
      · exact hqueue
    have hnil' : retained ⟨{ s.shared.dropReceiver s.shared.idle with
        io := none, writer := .gone }, s.tasks⟩ = [] :=
      retained_eq_nil.mpr ⟨rfl, (retained_eq_nil.mp hnil).2⟩
    refine ⟨?_, ?_, fun _ _ _ => rfl, by simp [hqueue'], fun hne => absurd rfl hne,
      fun _ => ⟨hqueue', hnil'⟩⟩
    · rw [hnil', hqueue', hsent, hwritten, ← hinv.chunks, hnil, hqueue]
    · have hone := hinv.one
      have hdrop := dropped_dropReceiver (g := s.shared) (r := s.shared.idle)
        (Nat.le_trans (Nat.le_add_left _ _) hone.le)
      exact (congrArg _ ((Nat.zero_add _).trans hdrop)).trans hone
  | stream hstep => exact stream_inv hmarshal hstep hinv

/-! ## What the invariant says -/

theorem Pc.length_hand_le : pc.hand.length ≤ 1 := by
  cases pc with
  | returning r remaining => cases remaining <;> simp [Pc.hand]
  | idle | attempting | waiting | acquired | looping | sending => simp [Pc.hand]

theorem Pc.past_of_hand (h : pc.hand ≠ []) : pc.Past := by
  cases pc with
  | idle | attempting | waiting | acquired => exact absurd rfl h
  | looping | sending | returning => trivial

theorem Inv.length_retained_le (hinv : Inv marshal s) : (retained s).length ≤ 1 := by
  by_cases hw : s.shared.writer = .gone
  · simp [(hinv.late hw).2]
  by_cases hhand : ∃ pc ∈ s.tasks, pc.hand ≠ []
  · -- the stream with a chunk has looked for a kept one, and no other stream has the receiver
    obtain ⟨pc, hpc, hhand⟩ := hhand
    have hpast := Pc.past_of_hand hhand
    obtain ⟨i, hi⟩ := List.mem_iff_getElem?.mp hpc
    have hholds : pc.holds = 1 := by
      rcases (hinv.early hw pc hpc).holds with ⟨-, hnone⟩ | hholds
      · exact absurd hnone (Pc.receiver_of_past hpast)
      · exact hholds
    have hothers := hinv.others hw hi hholds
    rw [retained, hinv.past pc hpc hpast,
      flatMap_of_alone hi fun j m hji hj => Pc.hand_of_receiver (hothers j m hji hj)]
    exact Pc.length_hand_le
  · have hnil : s.tasks.flatMap Pc.hand = [] :=
      List.flatMap_eq_nil_iff.mpr fun pc hpc => by_contra fun h => hhand ⟨pc, hpc, h⟩
    rw [retained, hnil, List.append_nil]
    cases s.shared.kept <;> simp

/-- In every interleaving of writes, attachments, preemptions and failed sends in which the channel
is removed when no chunk is left, what was sent, the chunk that is kept and the queue are what was
written, and one stream at most has the receiver. -/
theorem output_conserved (marshal : Chunk → Option β) (hmarshal : ∀ d, (marshal d).isSome)
    (h : Reachable Init (Guarded Delivered (next marshal)) s) : Conserved marshal s := by
  have hinv : Inv marshal s := h.guarded_invariant (fun _ => init_inv) (step_inv hmarshal)
  refine ⟨hinv.chunks, hinv.length_retained_le, ?_, ?_⟩
  · intro i j pc pc' hi hj hpc hpc'
    by_contra hij
    have := (hinv.alone hj hpc').2 i pc hij hi
    omega
  · intro pc hpc hholds hidle
    obtain ⟨i, hi⟩ := List.mem_iff_getElem?.mp hpc
    have := (hinv.alone hi hholds).1
    simp [rest, hidle, outputs] at this

/-- Stream 0 has the receiver, and a chunk is queued. -/
theorem attached_reachable :
    Reachable Init (Guarded Delivered (next some))
      (⟨{ io := some { number := 0, receiver := none, preemptionSender := some 0 },
          queue := [[1]], preemptions := 1, written := [[1]] },
        [.looping ⟨0, 0⟩, .idle]⟩ : St Chunk) := by
  have h₀ : Reachable Init (Guarded Delivered (next some)) (⟨{}, [.idle, .idle]⟩ : St Chunk) :=
    .init ⟨rfl, by simp⟩
  have h₁ := h₀.step ⟨.stream 0, trivial, .stream (.of_step rfl .attach)⟩
  have h₂ := h₁.step ⟨.stream 0, trivial, .stream (.of_step rfl (.take rfl rfl))⟩
  have h₃ := h₂.step ⟨.stream 0, trivial, .stream (.of_step rfl (.noRemaining rfl))⟩
  exact h₃.step ⟨.write [1], trivial, .write (by decide) rfl (by decide) rfl⟩

/-- A send fails and the chunk is kept; the next stream sends it, the output ends and the channel is
removed. -/
theorem output_conserved_handover :
    ∃ s : St Chunk, Reachable Init (Guarded Delivered (next some)) s ∧
      s.shared.sent = [[1]] ∧ s.shared.written = [[1]] ∧ s.shared.writer = .gone ∧
      Conserved some s := by
  have h₁ := attached_reachable.step
    ⟨.stream 0, trivial, .stream (.of_step rfl (.recv rfl (by decide) rfl))⟩
  have h₂ := h₁.step ⟨.stream 0, trivial, .stream (.of_step rfl .sendFails)⟩
  have h₃ := h₂.step ⟨.stream 0, trivial, .stream (.of_step rfl (.giveBack rfl))⟩
  have h₄ := h₃.step ⟨.stream 1, trivial, .stream (.of_step rfl .attach)⟩
  have h₅ := h₄.step ⟨.stream 1, trivial, .stream (.of_step rfl (.take rfl rfl))⟩
  have h₆ := h₅.step ⟨.stream 1, trivial, .stream (.of_step rfl (.remaining rfl rfl))⟩
  have h₇ := h₆.step ⟨.stream 1, trivial, .stream (.of_step rfl .sent)⟩
  have h₈ := h₇.step ⟨.close, trivial, .close rfl⟩
  have h₉ := h₈.step ⟨.remove, ⟨rfl, rfl⟩, .remove rfl⟩
  exact ⟨_, h₉, rfl, rfl, rfl, output_conserved some (fun _ => rfl) h₉⟩

/-- The output ends while a chunk is queued for the stream that has the receiver. The channel is
removed, the stream takes the loss of its preemption sender for a preemption, and drops the receiver
with the chunk. -/
theorem removed_channel_loses_output :
    ∃ s : St Chunk, Reachable Init (AnyStep (next some)) s ∧ s.shared.written = [[1]] ∧
      s.shared.sent = [] ∧ retained s = [] ∧ s.shared.queue = [] ∧ ¬ Conserved some s := by
  have h₁ := attached_reachable.unguarded.anyStep .close (.close rfl)
  have h₂ := h₁.anyStep .remove (.remove rfl)
  have h₃ := h₂.anyStep (.stream 0) (.stream (.of_step rfl (.preempted (by decide))))
  have h₄ := h₃.anyStep (.stream 0) (.stream (.of_step rfl (.giveBackRemoved rfl)))
  refine ⟨_, h₄, rfl, rfl, rfl, rfl, ?_⟩
  intro hconserved
  exact absurd hconserved.chunks (by decide)

end Kuasar.Streaming

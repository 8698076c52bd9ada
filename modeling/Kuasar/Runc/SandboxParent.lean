import Kuasar.Data.MachineInt
import Kuasar.Data.Streams
import Kuasar.Tla.Core

/-!
# Runc.SandboxParent — the process that forks the sandbox processes

The sandboxer does not fork sandbox processes itself. It has one child for that, the sandbox
parent, and talks to it over two pipes: a request of 512 bytes with the id and the network namespace
of the sandbox, and an answer of four bytes, the pid. For each request the sandbox parent forks a
child that unshares its namespaces, forks the sandbox process and reports its pid over a pipe of its
own. Nothing closes the pipes in the sandbox process: as long as it lives, it keeps open the write
ends of the answers and of the pipe of its request, and a read of either finds no end of file.

A text is its bytes: `from_utf8_lossy` leaves alone what was a string before. A read or a write that
was interrupted is repeated and leaves no trace. Everything else that can happen is a step: a read
or a write of any number of bytes, the end of a process at any point (a failed system call ends the
sandbox parent and its children, they unwrap every result), and a failed read or write of the
sandboxer.
-/

namespace Kuasar.Runc

/-! ## The request and the answer -/

/-- A field of `w` bytes that starts with these and is zero after them. -/
def field (w : ℕ) (bs : List UInt8) : List UInt8 := bs ++ List.replicate (w - bs.length) 0

/-- What a sandbox process is forked for. -/
@[ext] structure Request where
  id : List UInt8
  netns : List UInt8
  deriving DecidableEq, Repr

/-- The request as it is sent. A text that is longer than its field is an error. -/
def encode (r : Request) : Option (List UInt8) :=
  if r.id.length ≤ 64 ∧ r.netns.length ≤ 448 then some (field 64 r.id ++ field 448 r.netns)
  else none

/-- Where the network namespace ends: at the first zero from byte 64 on. -/
def zeroIndex (buffer : List UInt8) : ℕ :=
  match (buffer.drop 64).findIdx? (· == 0) with
  | some i => 64 + i
  | none => 64

/-- What the sandbox parent makes of the bytes it has read. -/
def decode (buffer : List UInt8) : Request where
  id := buffer.take 64
  netns := (buffer.drop 64).take (zeroIndex buffer - 64)

/-- `i32::from_le_bytes`. -/
def pidOf (bs : List UInt8) : ℤ := MachineInt.wrapping 32 (fromLeBytes bs)

/-- `i32::to_le_bytes`. -/
def pidBytes (pid : ℤ) : List UInt8 := toLeBytes 4 (MachineInt.toUnsigned 32 pid)

/-! ## The three processes -/

/-- A call of `fork_sandbox_process`: `write_all` with what is left of the request, or `read_count`
with what it has of the answer. -/
inductive Caller where
  | idle
  | writing (rest : List UInt8)
  | reading (got : List UInt8)
  deriving DecidableEq, Repr

/-- The child that the sandbox parent forked for a request: before it has forked the sandbox
process, with what is left of the pid, or gone. -/
inductive Child where
  | starting
  | writing (rest : List UInt8)
  | gone
  deriving DecidableEq, Repr

/-- The loop of the sandbox parent: `read_count` of a request, the request it has read,
`fork_sandbox` with the child, the pipe of the child and what was read of it, `write_all` of an
answer. When it is dead its child may be left, before or after the fork of the sandbox process. -/
inductive Parent where
  | reading (got : List UInt8)
  | serving (r : Request)
  | waiting (r : Request) (child : Child) (pipe got : List UInt8)
  | answering (rest : List UInt8)
  | orphan (r : Request) (forked : Bool)
  | dead
  deriving DecidableEq, Repr

/-- `write_all` in a call: it is over when nothing is left. -/
def Caller.send : List UInt8 → Caller
  | [] => .reading []
  | b :: rest => .writing (b :: rest)

/-- `write_all` in the sandbox parent. -/
def Parent.answer : List UInt8 → Parent
  | [] => .reading []
  | b :: rest => .answering (b :: rest)

/-- What the death of the sandbox parent leaves. -/
def Parent.die : Parent → Parent
  | .waiting r .starting _ _ => .orphan r false
  | .waiting r (.writing _) _ _ => .orphan r true
  | .orphan r forked => .orphan r forked
  | _ => .dead

inductive CallError where
  | writeFailed
  | readFailed
  deriving DecidableEq, Repr

/-- A sandbox process: the number of the request, what was decoded of it, and the pid. -/
structure Fork where
  request : ℕ
  decoded : Request
  pid : ℕ
  deriving DecidableEq, Repr

/-- The end of a call: the number of its request, the result, and how many bytes of the pid came
through both pipes. -/
structure Return where
  request : ℕ
  result : Except CallError ℤ
  heard : ℕ

/-- What is in the pipes between the two ends. `heard` is how many bytes of a pid the sandbox parent
had when it answered the request at hand. Kept for the proof: the requests that were sent, how many
of them were read, and the sandbox processes. -/
structure Wire where
  req : List UInt8 := []
  resp : List UInt8 := []
  heard : ℕ := 0
  sent : List Request := []
  served : ℕ := 0
  forks : List Fork := []

/-- The two ends, and the requests whose sandbox process is alive. Kept for the proof: the
results. -/
structure State extends Wire where
  caller : Caller := .idle
  parent : Parent := .reading []
  alive : List ℕ := []
  returns : List Return := []

/-- A call returns. -/
def State.finish (s : State) (result : Except CallError ℤ) (heard : ℕ) : State :=
  { s with
    caller := .idle
    returns := s.returns ++ [⟨s.sent.length - 1, result, heard⟩] }

/-- The sandbox process of the request at hand was forked. -/
def State.fork (s : State) (r : Request) (pid : ℕ) (parent : Parent) : State :=
  { s with
    parent := parent
    alive := (s.served - 1) :: s.alive
    forks := s.forks ++ [⟨s.served - 1, r, pid⟩] }

/-- The failures among the steps: of the sandboxer itself, and the ends of the other processes. -/
inductive Label where
  | quiet
  | writeFails
  | readFails
  | parentDies
  | childDies
  | sandboxDies
  deriving DecidableEq, Repr

inductive Step : Label → State → State → Prop where
  -- `fork_sandbox_process`: calls come one after the other, under the lock of the `SandboxParent`
  | call {s r bytes} (hc : s.caller = .idle) (h : encode r = some bytes) :
      Step .quiet s { s with caller := .writing bytes, sent := s.sent ++ [r], heard := 0 }
  | write {s bs rest} (hc : s.caller = .writing (bs ++ rest)) :
      Step .quiet s { s with caller := .send rest, req := s.req ++ bs }
  | writeFails {s rest} (hc : s.caller = .writing rest) :
      Step .writeFails s (s.finish (.error .writeFailed) 0)
  | read {s got bs resp} (hc : s.caller = .reading got) (hresp : s.resp = bs ++ resp)
      (hfit : (got ++ bs).length ≤ 4) :
      Step .quiet s { s with caller := .reading (got ++ bs), resp := resp }
  -- `read_count` returns when it has all bytes, and also when no one has the other end open
  | returned {s got} (hc : s.caller = .reading got)
      (h : got.length = 4 ∨ (s.parent = .dead ∧ s.alive = [] ∧ s.resp = [])) :
      Step .quiet s (s.finish (.ok (pidOf (field 4 got))) (min s.heard got.length))
  | readFails {s got} (hc : s.caller = .reading got) :
      Step .readFails s (s.finish (.error .readFailed) 0)
  -- the loop of the sandbox parent
  | parentRead {s got bs req} (hp : s.parent = .reading got) (hreq : s.req = bs ++ req)
      (hfit : (got ++ bs).length ≤ 512) :
      Step .quiet s { s with parent := .reading (got ++ bs), req := req }
  | parentDecodes {s buffer} (hp : s.parent = .reading buffer) (h : buffer.length = 512) :
      Step .quiet s { s with parent := .serving (decode buffer), served := s.served + 1 }
  | parentForks {s r} (hp : s.parent = .serving r) :
      Step .quiet s { s with parent := .waiting r .starting [] [] }
  | parentHears {s r child bs pipe got}
      (hp : s.parent = .waiting r child (bs ++ pipe) got) (hfit : (got ++ bs).length ≤ 4) :
      Step .quiet s { s with parent := .waiting r child pipe (got ++ bs) }
  | parentHeard {s r child pipe got} (hp : s.parent = .waiting r child pipe got)
      (h : got.length = 4 ∨ (child = .gone ∧ s.served - 1 ∉ s.alive ∧ pipe = [])) :
      Step .quiet s
        { s with parent := .answering (pidBytes (pidOf (field 4 got))), heard := got.length }
  | parentWrites {s bs rest} (hp : s.parent = .answering (bs ++ rest)) :
      Step .quiet s { s with parent := .answer rest, resp := s.resp ++ bs }
  | parentDies {s} : Step .parentDies s { s with parent := s.parent.die }
  -- the child of a request; it is gone when it has written the pid and when it fails
  | childForks {s r pid pipe got} (hp : s.parent = .waiting r .starting pipe got)
      (hpos : 0 < pid) (hlt : pid < 2 ^ 31) :
      Step .quiet s (s.fork r pid (.waiting r (.writing (pidBytes pid)) pipe got))
  | childWrites {s r bs rest pipe got}
      (hp : s.parent = .waiting r (.writing (bs ++ rest)) pipe got) :
      Step .quiet s { s with parent := .waiting r (.writing rest) (pipe ++ bs) got }
  | childDies {s r child pipe got} (hp : s.parent = .waiting r child pipe got) :
      Step .childDies s { s with parent := .waiting r .gone pipe got }
  | orphanForks {s r pid} (hp : s.parent = .orphan r false) (hpos : 0 < pid)
      (hlt : pid < 2 ^ 31) : Step .quiet s (s.fork r pid (.orphan r true))
  | orphanDies {s r forked} (hp : s.parent = .orphan r forked) :
      Step .childDies s { s with parent := .dead }
  | sandboxDies {s} (n : ℕ) : Step .sandboxDies s { s with alive := s.alive.filter (· ≠ n) }

/-! ## What is decoded of a request -/

theorem length_field {w : ℕ} {bs : List UInt8} (h : bs.length ≤ w) : (field w bs).length = w := by
  rw [field, List.length_append, List.length_replicate]
  omega

variable {r : Request} {bytes : List UInt8}

theorem length_encode (h : encode r = some bytes) : bytes.length = 512 := by
  unfold encode at h
  split at h
  · rename_i hfit
    cases h
    rw [List.length_append, length_field hfit.1, length_field hfit.2]
  · cases h

theorem decode_encode (h : encode r = some bytes) :
    r.id.length ≤ 64 ∧ r.netns.length ≤ 448 ∧ (decode bytes).id = field 64 r.id ∧
      bytes.drop 64 = field 448 r.netns := by
  unfold encode at h
  split at h
  · rename_i hfit
    cases h
    have hlen : (field 64 r.id).length = 64 := length_field hfit.1
    refine ⟨hfit.1, hfit.2, ?_, ?_⟩
    · show (field 64 r.id ++ field 448 r.netns).take 64 = field 64 r.id
      rw [List.take_append_of_le_length (by omega), List.take_of_length_le (by omega)]
    · rw [List.drop_append_of_le_length (by omega), List.drop_of_length_le (by omega),
        List.nil_append]
  · cases h

/-- The id arrives as it was sent if it fills its field. -/
theorem decode_id (h : encode r = some bytes) : (decode bytes).id = r.id ↔ r.id.length = 64 := by
  obtain ⟨hid, -, hfield, -⟩ := decode_encode h
  rw [hfield]
  constructor
  · intro heq
    rw [← heq]
    exact length_field hid
  · intro hlen
    rw [field, hlen, Nat.sub_self, List.replicate_zero, List.append_nil]

/-- The first zero of a field comes right after what it holds. -/
theorem findIdx?_field {w : ℕ} {bs : List UInt8} (hbs : (0 : UInt8) ∉ bs) :
    (field w bs).findIdx? (· == 0) = if bs.length < w then some bs.length else none := by
  have hno : bs.findIdx? (· == 0) = none := by
    rw [List.findIdx?_eq_none_iff]
    intro b hb
    simp only [beq_eq_false_iff_ne, ne_eq]
    rintro rfl
    exact hbs hb
  rw [field, List.findIdx?_append, hno, Option.none_or]
  split
  · obtain ⟨k, hk⟩ : ∃ k, w - bs.length = k + 1 := ⟨w - bs.length - 1, by omega⟩
    simp [hk, List.replicate_succ, List.findIdx?_cons]
  · rename_i hge
    simp [Nat.sub_eq_zero_of_le (Nat.le_of_not_lt hge)]

/-- The path arrives as it was sent unless it fills its field: it then arrives as no path. -/
theorem decode_netns (h : encode r = some bytes) (hnul : (0 : UInt8) ∉ r.netns) :
    (decode bytes).netns = if r.netns.length < 448 then r.netns else [] := by
  obtain ⟨-, hnetns, -, hfield⟩ := decode_encode h
  unfold decode zeroIndex
  rw [hfield, findIdx?_field hnul]
  by_cases hlt : r.netns.length < 448
  · rw [if_pos hlt, if_pos hlt]
    simp [field]
  · rw [if_neg hlt, if_neg hlt]
    rfl

/-- What is decoded is what was sent exactly if the id fills its field and the path does not. -/
theorem decode_eq_iff (h : encode r = some bytes) (hnul : (0 : UInt8) ∉ r.netns) :
    decode bytes = r ↔ r.id.length = 64 ∧ r.netns.length < 448 := by
  have hnetns := decode_netns h hnul
  constructor
  · intro heq
    refine ⟨(decode_id h).mp (by rw [heq]), ?_⟩
    by_contra hlt
    rw [if_neg hlt, heq] at hnetns
    rw [hnetns, List.length_nil] at hlt
    omega
  · rintro ⟨hid, hlt⟩
    rw [if_pos hlt] at hnetns
    exact Request.ext ((decode_id h).mpr hid) hnetns

end Kuasar.Runc

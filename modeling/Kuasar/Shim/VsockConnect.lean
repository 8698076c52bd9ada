import Kuasar.Data.Json
import Kuasar.Data.Streams

/-!
# Shim.VsockConnect — the handshake of a hybrid vsock connection

The shim reaches a port of the guest through a socket of the hypervisor: it writes `CONNECT`
with the port, and the hypervisor answers with a line `OK` and a number before it forwards the
bytes of the guest. `connect` takes the answer with one read of at most 16 bytes and looks for
`OK` in it; what it read is gone, and what it did not read stays in the stream that it returns.

So the stream starts behind the line only if that one read returns the line, no less and no more
(`connect_exact_iff`).
-/

namespace Kuasar.Vsock

open Json

def okLine (n : ℕ) : List UInt8 := text ("OK " ++ toString n ++ "\n")

/-- What a peer that accepts the connection sends: the line and then the bytes of the guest, in
the chunks in which they arrive. -/
structure Answer where
  port : ℕ
  data : List UInt8
  stream : Chunked UInt8
  content_eq : stream.content = okLine port ++ data

inductive Attempt where
  | cannotConnect
  | notWritable
  | writeWouldBlock
  | writeFailed
  | notReadable
  | readWouldBlock
  | readFailed
  | closed
  | answer (a : Answer)

inductive ConnectError where
  | cannotConnect
  | notWritable
  | writeFailed
  | notReadable
  | readFailed
  | timeout (port : ℤ)
deriving DecidableEq, Repr

/-- The buffer for the answer. -/
def bufLen : ℕ := 16

/-- How often `connect` tries. -/
def maxAttempts : ℕ := 100

/-- `String::from_utf8(buf).unwrap_or_default().contains("OK")`. -/
def SaysOk (buf : List UInt8) : Prop :=
  (ByteArray.mk buf.toArray).IsValidUTF8 ∧ text "OK" <:+: buf

instance (buf : List UInt8) : Decidable (SaysOk buf) := inferInstanceAs (Decidable (_ ∧ _))

/-- `VsockIO::connect`, with the attempts that are left and the results of those to come. -/
def connectFrom (port : ℤ) (attempts : ℕ → Attempt) (i : ℕ) :
    ℕ → Except ConnectError (Chunked UInt8)
  | 0 => .error (.timeout port)
  | k + 1 =>
    match attempts i with
    | .cannotConnect => .error .cannotConnect
    | .notWritable => .error .notWritable
    | .writeWouldBlock => connectFrom port attempts (i + 1) k
    | .writeFailed => .error .writeFailed
    | .notReadable => .error .notReadable
    | .readWouldBlock => connectFrom port attempts (i + 1) k
    | .readFailed => .error .readFailed
    | .closed => connectFrom port attempts (i + 1) k
    | .answer a =>
      let (buf, stream) := a.stream.read bufLen
      if SaysOk buf then .ok stream else connectFrom port attempts (i + 1) k

/-- `VsockIO::connect`. -/
def connect (port : ℤ) (attempts : ℕ → Attempt) : Except ConnectError (Chunked UInt8) :=
  connectFrom port attempts 0 maxAttempts

/-- `copy` forwards a stream chunk by chunk. -/
def forward (s : Chunked UInt8) : List UInt8 := s.chunks.foldl (· ++ ·) []

theorem forward_eq (s : Chunked UInt8) : forward s = s.content := by
  have hfold : ∀ (cs : List (List UInt8)) (out : List UInt8),
      cs.foldl (· ++ ·) out = out ++ cs.flatten := by
    intro cs
    induction cs with
    | nil => simp
    | cons c cs ih =>
      intro out
      rw [List.foldl_cons, ih, List.flatten_cons, List.append_assoc]
  exact hfold s.chunks []

def Attempt.Retried : Attempt → Prop
  | .writeWouldBlock | .readWouldBlock | .closed => True
  | .answer a => ¬ SaysOk (a.stream.read bufLen).1
  | _ => False

def Taken (attempts : ℕ → Attempt) (i : ℕ) (a : Answer) : Prop :=
  (∀ j < i, (attempts j).Retried) ∧ attempts i = .answer a ∧ SaysOk (a.stream.read bufLen).1

section Connect

variable {port : ℤ} {attempts : ℕ → Attempt} {i k : ℕ} {a : Answer}

theorem connectFrom_retried (h : (attempts i).Retried) :
    connectFrom port attempts i (k + 1) = connectFrom port attempts (i + 1) k := by
  rw [connectFrom]
  cases hattempt : attempts i with
  | writeWouldBlock => rfl
  | readWouldBlock => rfl
  | closed => rfl
  | answer a =>
    rw [hattempt] at h
    exact if_neg h
  | _ =>
    rw [hattempt] at h
    exact h.elim

theorem connectFrom_skip {n : ℕ} (h : ∀ j < n, (attempts (i + j)).Retried) :
    connectFrom port attempts i (n + k) = connectFrom port attempts (i + n) k := by
  induction n generalizing i with
  | zero => rw [Nat.zero_add, Nat.add_zero]
  | succ n ih =>
    have hfirst : (attempts i).Retried := h 0 (Nat.succ_pos n)
    have hcount : n + 1 + k = n + k + 1 := by omega
    rw [hcount, connectFrom_retried hfirst, ih]
    · congr 1
      omega
    · intro j hj
      have := h (j + 1) (by omega)
      rwa [← Nat.add_assoc, Nat.add_right_comm] at this

/-- The stream of the attempt that is taken is what its one read left. -/
theorem connect_taken (h : Taken attempts i a) (hi : i < maxAttempts) :
    connect port attempts = .ok (a.stream.read bufLen).2 := by
  obtain ⟨hretried, hanswer, hok⟩ := h
  have hsplit : maxAttempts = i + (maxAttempts - i - 1 + 1) := by omega
  unfold connect
  rw [hsplit, connectFrom_skip (by simpa using hretried), Nat.zero_add, connectFrom, hanswer]
  exact if_pos hok

/-- What is left after a read is the data just when the read was the line. -/
theorem content_read_eq_data_iff :
    (a.stream.read bufLen).2.content = a.data ↔
      (a.stream.read bufLen).1 = okLine a.port := by
  have hcontent := a.stream.content_read bufLen
  rw [a.content_eq] at hcontent
  constructor
  · intro h
    rw [h] at hcontent
    exact (List.append_cancel_right hcontent).symm
  · intro h
    rw [h] at hcontent
    exact (List.append_cancel_left hcontent).symm

/-- For every peer and every way in which its bytes arrive: `connect` returns a stream that yields
exactly the bytes behind the handshake line if and only if, of the first attempt whose one read
contains `OK`, that read is the line. -/
theorem connect_exact_iff (port : ℤ) (attempts : ℕ → Attempt) :
    (∃ i a s, i < maxAttempts ∧ Taken attempts i a ∧ connect port attempts = .ok s ∧
      forward s = a.data) ↔
    ∃ i a, i < maxAttempts ∧ Taken attempts i a ∧
      (a.stream.read bufLen).1 = okLine a.port := by
  constructor
  · rintro ⟨i, a, s, hi, htaken, hconnect, hdata⟩
    rw [connect_taken htaken hi] at hconnect
    cases hconnect
    rw [forward_eq] at hdata
    exact ⟨i, a, hi, htaken, content_read_eq_data_iff.mp hdata⟩
  · rintro ⟨i, a, hi, htaken, hline⟩
    refine ⟨i, a, _, hi, htaken, connect_taken htaken hi, ?_⟩
    rw [forward_eq]
    exact content_read_eq_data_iff.mpr hline

end Connect

theorem saysOk_text {s : String} (h : text "OK" <:+: text s) : SaysOk (text s) :=
  ⟨s.isValidUTF8, h⟩

/-- The line arrives on its own. -/
def lineFirst : Answer := ⟨1, text "hi", ⟨[text "OK 1\n", text "hi"], by decide⟩, by decide⟩

/-- The peer closes the first connection and answers the second. -/
def secondAnswers : ℕ → Attempt
  | 0 => .closed
  | _ => .answer lineFirst

theorem connect_exact_iff_lineFirst :
    ∃ i a s, i < maxAttempts ∧ Taken secondAnswers i a ∧ connect 20000 secondAnswers = .ok s ∧
      forward s = a.data := by
  have htaken : Taken secondAnswers 1 lineFirst := by
    refine ⟨?_, rfl, saysOk_text (s := "OK 1\n") (by decide)⟩
    intro j hj
    obtain rfl : j = 0 := by omega
    trivial
  exact (connect_exact_iff 20000 secondAnswers).mpr
    ⟨1, lineFirst, by decide, htaken, by decide⟩

/-- The line and the first output of the container arrive at once. -/
def atOnce : Answer := ⟨1, text "hi", .whole (text "OK 1\nhi"), by decide⟩

def inParts : Answer := ⟨1, text "hi", ⟨[text "OK", text " 1\nhi"], by decide⟩, by decide⟩

/-- In the first case the output is lost, in the second the rest of the line is taken for output. -/
theorem output_lost_or_line_leaked :
    (∃ s, connect 20000 (fun _ => .answer atOnce) = .ok s ∧ forward s = []) ∧
      ∃ s, connect 20000 (fun _ => .answer inParts) = .ok s ∧ forward s = text " 1\nhi" := by
  have hatOnce : Taken (fun _ => .answer atOnce) 0 atOnce :=
    ⟨by simp, rfl, saysOk_text (s := "OK 1\nhi") (by decide)⟩
  have hinParts : Taken (fun _ => .answer inParts) 0 inParts :=
    ⟨by simp, rfl, saysOk_text (s := "OK") (by decide)⟩
  exact ⟨⟨_, connect_taken hatOnce (by decide), by decide⟩,
    ⟨_, connect_taken hinParts (by decide), by decide⟩⟩

end Kuasar.Vsock

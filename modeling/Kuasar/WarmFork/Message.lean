import Kuasar.Data.Json
import Kuasar.Data.Streams

/-!
# WarmFork.Message — the messages of the injection protocol and their framing

The guest agent and a workload that waits to be forked talk over a socket: the workload
sends `WorkloadMessage`s, the agent `SandboxerMessage`s. A message travels as a frame, the
length of its JSON text in four bytes and then the text.

The framing is generic in the message: `Serde` is what `serde_json` provides for a type,
with the round trip it promises. `SandboxerMessage.serde` is the instance for the agent's
messages. The reader refuses frames above a maximum; the writer knows no maximum, and
writes the low four bytes of the length whatever it is.
-/

namespace Kuasar.WarmFork

/-! ## Messages -/

/-- The version of the protocol, declared by a workload in its first message. -/
def protocolVersion : String := "1"

def maxFrameLen : ℕ := 4 * 1024 * 1024

/-- What a workload supports. -/
structure Capabilities where
  protocolVersion : String
  supportedFeatures : List String := []
  deriving DecidableEq, Repr

/-- Why a workload refuses its task. -/
inductive RejectReason where
  | parseError
  | invalidTaskId
  | resourceExhausted
  deriving DecidableEq, Repr

def RejectReason.asStr : RejectReason → String
  | .parseError => "parse_error"
  | .invalidTaskId => "invalid_task_id"
  | .resourceExhausted => "resource_exhausted"

inductive WorkloadMessage where
  | capabilities (c : Capabilities)
  | ready
  | started
  | reject (reason : RejectReason) (message : String)
  | cancelAck
  deriving DecidableEq, Repr

/-- The task that a workload is asked to take. -/
structure PreparePayload where
  taskId : String
  envOverrides : List (String × String) := []
  context : String := ""
  deriving DecidableEq, Repr

inductive SandboxerMessage where
  | prepare (p : PreparePayload)
  | commit
  | cancel (reason : String)
  deriving DecidableEq, Repr

/-! ## JSON -/

/-- What `serde_json` does for a type: `to_vec` and `from_slice`, each with the text of its
error, and what was written is read back. -/
structure Serde (α : Type) where
  toVec : α → Except String (List UInt8)
  fromSlice : List UInt8 → Except String α
  roundTrip : ∀ {m body}, toVec m = .ok body → fromSlice body = .ok m

namespace SandboxerMessage

open Json

/-- The JSON text of a message: its tag, then its fields. -/
def json : SandboxerMessage → List UInt8
  | .prepare p =>
    text "\x7b\"type\":" ++ (quoted "PREPARE" ++ (text ",\"task_id\":" ++ (quoted p.taskId ++
      (text ",\"env_overrides\":\x7b" ++ (pairs p.envOverrides ++ (text ",\"context\":" ++
        (quoted p.context ++ text "\x7d")))))))
  | .commit => text "\x7b\"type\":" ++ (quoted "COMMIT" ++ text "\x7d")
  | .cancel reason =>
    text "\x7b\"type\":" ++ (quoted "CANCEL" ++ (text ",\"reason\":" ++ (quoted reason ++
      text "\x7d")))

/-- The fields of a `PREPARE`. -/
def readPrepare (bs : List UInt8) : Option (SandboxerMessage × List UInt8) := do
  let bs ← expect (text ",\"task_id\":") bs
  let (taskId, bs) ← readQuoted bs
  let bs ← expect (text ",\"env_overrides\":\x7b") bs
  let (envOverrides, bs) ← readPairs bs
  let bs ← expect (text ",\"context\":") bs
  let (context, bs) ← readQuoted bs
  return (.prepare ⟨taskId, envOverrides, context⟩, bs)

/-- The field of a `CANCEL`. -/
def readCancel (bs : List UInt8) : Option (SandboxerMessage × List UInt8) := do
  let bs ← expect (text ",\"reason\":") bs
  let (reason, bs) ← readQuoted bs
  return (.cancel reason, bs)

/-- Read the JSON text of a message, all of it. -/
def ofJson (bs : List UInt8) : Option SandboxerMessage := do
  let bs ← expect (text "\x7b\"type\":") bs
  let (kind, bs) ← readQuoted bs
  let (m, bs) ←
    if kind = "PREPARE" then readPrepare bs
    else if kind = "COMMIT" then some (.commit, bs)
    else if kind = "CANCEL" then readCancel bs
    else none
  let bs ← expect (text "\x7d") bs
  if bs = [] then some m else none

theorem ofJson_json (m : SandboxerMessage) : ofJson m.json = some m := by
  have hend : expect (text "\x7d") (text "\x7d") = some [] := by
    simpa using expect_append (text "\x7d") []
  cases m with
  | prepare p =>
    simp [json, ofJson, readPrepare, readQuoted_quoted, readPairs_pairs, hend]
  | commit => simp [json, ofJson, readQuoted_quoted, hend]
  | cancel reason => simp [json, ofJson, readCancel, readQuoted_quoted, hend]

/-- The agent's messages as JSON. -/
def serde : Serde SandboxerMessage where
  toVec m := .ok m.json
  fromSlice bs :=
    match ofJson bs with
    | some m => .ok m
    | none => .error "invalid message"
  roundTrip := by
    intro m body h
    cases h
    rw [ofJson_json]

end SandboxerMessage

/-! ## Framing -/

inductive ErrorKind where
  | invalidData
  | invalidInput
  | unexpectedEof
  deriving DecidableEq, Repr

structure IoError where
  kind : ErrorKind
  message : String
  deriving DecidableEq, Repr

variable {α : Type} (serde : Serde α)

/-- `read_framed_message`. -/
def readFramedMessage (maxLen : ℕ) (s : Chunked UInt8) : Except IoError (α × Chunked UInt8) :=
  match s.readExact 4 with
  | none => .error ⟨.unexpectedEof, "early eof"⟩
  | some (lenBuf, s) =>
    let len := fromBeBytes lenBuf
    if len > maxLen then
      .error ⟨.invalidData, s!"frame length {len} exceeds maximum {maxLen}"⟩
    else
      match s.readExact len with
      | none => .error ⟨.unexpectedEof, "early eof"⟩
      | some (body, s) =>
        match serde.fromSlice body with
        | .error e => .error ⟨.invalidData, e⟩
        | .ok m => .ok (m, s)

/-- `write_framed_message`, to what was written before. -/
def writeFramedMessage (out : List UInt8) (m : α) : Except IoError (List UInt8) :=
  match serde.toVec m with
  | .error e => .error ⟨.invalidInput, e⟩
  | .ok body => .ok (out ++ toBeBytes 4 body.length ++ body)

def writeMessages (out : List UInt8) : List α → Except IoError (List UInt8)
  | [] => .ok out
  | m :: ms =>
    match writeFramedMessage serde out m with
    | .error e => .error e
    | .ok out => writeMessages out ms

def frame (body : List UInt8) : List UInt8 := toBeBytes 4 body.length ++ body

/-- Reading `s` at the protocol's maximum returns the messages one by one, each read
consumes the frame of its message, and nothing is left at the end. -/
def ReadsBack : List α → Chunked UInt8 → Prop
  | [], s => s.content = []
  | m :: ms, s => ∃ body s', serde.toVec m = .ok body ∧
      readFramedMessage serde maxFrameLen s = .ok (m, s') ∧
      s.content = frame body ++ s'.content ∧ ReadsBack ms s'

variable {serde}

/-! ## What is written -/

/-- What a sequence of writes appends does not depend on what was there. -/
theorem writeMessages_append (out : List UInt8) (ms : List α) :
    writeMessages serde out ms = (writeMessages serde [] ms).map (out ++ ·) := by
  induction ms generalizing out with
  | nil => simp [writeMessages, Except.map]
  | cons m ms ih =>
    simp only [writeMessages, writeFramedMessage]
    rcases serde.toVec m with e | body
    · rfl
    · simp only [List.nil_append]
      rw [ih (out ++ toBeBytes 4 body.length ++ body), ih (toBeBytes 4 body.length ++ body)]
      rcases writeMessages serde [] ms with e | tail
      · rfl
      · simp [Except.map]

theorem writeMessages_cons {out : List UInt8} {m : α} {ms : List α}
    (h : writeMessages serde [] (m :: ms) = .ok out) :
    ∃ body tail, serde.toVec m = .ok body ∧ out = frame body ++ tail ∧
      writeMessages serde [] ms = .ok tail := by
  simp only [writeMessages, writeFramedMessage] at h
  rcases hm : serde.toVec m with e | body
  · simp [hm] at h
  · simp only [hm] at h
    rw [writeMessages_append] at h
    rcases htail : writeMessages serde [] ms with e | tail
    · simp [htail, Except.map] at h
    · rw [htail] at h
      cases h
      exact ⟨body, tail, rfl, by simp [frame], rfl⟩

/-! ## What is read -/

/-- A frame whose body is not too long is read as its message, whatever follows it and
however it arrives. -/
theorem readFramedMessage_frame {s : Chunked UInt8} {m : α} {body tail : List UInt8}
    (hm : serde.toVec m = .ok body) (hlen : body.length ≤ maxFrameLen)
    (hs : s.content = frame body ++ tail) :
    ∃ s', readFramedMessage serde maxFrameLen s = .ok (m, s') ∧ s'.content = tail := by
  rw [frame, List.append_assoc] at hs
  obtain ⟨s₁, hhead, hs₁⟩ := Chunked.readExact_append hs
  obtain ⟨s₂, hbody, hs₂⟩ := Chunked.readExact_append hs₁
  have hfit : body.length < 256 ^ 4 := by
    have : maxFrameLen < 256 ^ 4 := by decide
    omega
  have hval : fromBeBytes (toBeBytes 4 body.length) = body.length := by
    rw [fromBeBytes_toBeBytes, Nat.mod_eq_of_lt hfit]
  rw [length_toBeBytes] at hhead
  refine ⟨s₂, ?_, hs₂⟩
  unfold readFramedMessage
  simp only [hhead, hval, gt_iff_lt, Nat.not_lt.mpr hlen, if_false, hbody, serde.roundTrip hm]

/-- What a read consumed is a frame, and its body is not too long. -/
theorem readFramedMessage_eq_ok {s s' : Chunked UInt8} {m : α} {maxLen : ℕ}
    (h : readFramedMessage serde maxLen s = .ok (m, s')) :
    ∃ head body, head.length = 4 ∧ fromBeBytes head = body.length ∧ body.length ≤ maxLen ∧
      s.content = head ++ body ++ s'.content := by
  unfold readFramedMessage at h
  split at h
  · cases h
  rename_i head s₁ hhead
  obtain ⟨hlen, hs⟩ := Chunked.readExact_eq_some hhead
  simp only at h
  split at h
  · cases h
  split at h
  · cases h
  rename_i body s₂ hbody
  obtain ⟨hblen, hs₁⟩ := Chunked.readExact_eq_some hbody
  split at h
  · cases h
  · cases h
    refine ⟨head, body, hlen, hblen.symm, by omega, ?_⟩
    rw [hs, hs₁, List.append_assoc]

/-- A message that is read back from its frame has a body that is not too long. -/
theorem ReadsBack.length_le {s : Chunked UInt8} {m : α} {ms : List α}
    (h : ReadsBack serde (m :: ms) s) {body : List UInt8} (hm : serde.toVec m = .ok body) :
    body.length ≤ maxFrameLen := by
  obtain ⟨body', s', hm', hread, hs, -⟩ := h
  have hbody : body' = body := by
    have := hm'.symm.trans hm
    cases this
    rfl
  subst hbody
  obtain ⟨head, body, hhead, -, hle, hs'⟩ := readFramedMessage_eq_ok hread
  -- both split the same bytes after the fourth
  have hsplit : head ++ body = toBeBytes 4 body'.length ++ body' :=
    List.append_cancel_right (hs'.symm.trans hs)
  have hlen : head.length = (toBeBytes 4 body'.length).length := by
    rw [hhead, length_toBeBytes]
  rw [← (List.append_inj hsplit hlen).2]
  exact hle

/-! ## The round trip -/

/-- The messages of a sequence that was written are read back, in order and each from its
own frame, however the bytes arrive, if and only if the text of each is within the maximum
length of a frame. -/
theorem written_messages_read_back_iff {ms : List α} {out : List UInt8}
    (hw : writeMessages serde [] ms = .ok out) :
    (∀ s : Chunked UInt8, s.content = out → ReadsBack serde ms s) ↔
      ∀ m ∈ ms, ∀ body, serde.toVec m = .ok body → body.length ≤ maxFrameLen := by
  constructor
  · intro h
    have hback := h (Chunked.whole out) (Chunked.content_whole out)
    clear h hw
    generalize Chunked.whole out = s at hback
    induction ms generalizing s with
    | nil =>
      intro m hm
      cases hm
    | cons m ms ih =>
      intro m' hmem body hm'
      rcases List.mem_cons.mp hmem with rfl | hmem
      · exact hback.length_le hm'
      · obtain ⟨-, s', -, -, -, hrest⟩ := hback
        exact ih s' hrest m' hmem body hm'
  · intro hle
    induction ms generalizing out with
    | nil =>
      cases hw
      intro s hs
      exact hs
    | cons m ms ih =>
      intro s hs
      obtain ⟨body, tail, hm, rfl, htail⟩ := writeMessages_cons hw
      have hlen := hle m List.mem_cons_self body hm
      obtain ⟨s', hread, hs'⟩ := readFramedMessage_frame hm hlen hs
      refine ⟨body, s', hm, hread, by rw [hs, hs'], ?_⟩
      exact ih htail (fun m' hmem => hle m' (List.mem_cons_of_mem m hmem)) s' hs'

/-- Two messages of the agent, written and read back. -/
theorem written_messages_read_back_prepare_commit :
    ∃ out, writeMessages SandboxerMessage.serde [] [.prepare ⟨"t1", [], ""⟩, .commit] = .ok out ∧
      ∀ s : Chunked UInt8, s.content = out →
        ReadsBack SandboxerMessage.serde [.prepare ⟨"t1", [], ""⟩, .commit] s := by
  refine ⟨_, rfl, (written_messages_read_back_iff rfl).mpr ?_⟩
  intro m hm body hbody
  cases hbody
  simp only [List.mem_cons, List.not_mem_nil, or_false] at hm
  rcases hm with rfl | rfl
  · decide
  · decide

/-- A text of `n` letters is `n` bytes long. -/
theorem length_text_replicate (n : ℕ) :
    (Json.text (String.ofList (List.replicate n 'a'))).length = n := by
  show (String.ofList (List.replicate n 'a')).utf8ByteSize = n
  induction n with
  | zero => rfl
  | succ n ih =>
    rw [List.replicate_succ', String.ofList_append, String.utf8ByteSize_append, ih]
    rfl

/-- The text of a task is longer than its context. -/
theorem length_context_lt_json (p : PreparePayload) :
    (Json.text p.context).length < (SandboxerMessage.prepare p).json.length := by
  have hcontext := Json.length_text_le_quoted p.context
  have hbrace : (Json.text "\x7d").length = 1 := rfl
  simp only [SandboxerMessage.json, List.length_append]
  omega

/-- A task whose context is as long as a frame may be is written, and its frame is
refused. -/
theorem long_context_not_read_back :
    ∃ out, writeMessages SandboxerMessage.serde []
        [.prepare ⟨"t1", [], String.ofList (List.replicate maxFrameLen 'a')⟩] = .ok out ∧
      ∃ s : Chunked UInt8, s.content = out ∧ ¬ ReadsBack SandboxerMessage.serde
        [.prepare ⟨"t1", [], String.ofList (List.replicate maxFrameLen 'a')⟩] s := by
  refine ⟨_, rfl, Chunked.whole _, Chunked.content_whole _, ?_⟩
  intro h
  have hle := h.length_le rfl
  have hlt := length_context_lt_json ⟨"t1", [], String.ofList (List.replicate maxFrameLen 'a')⟩
  rw [length_text_replicate] at hlt
  omega

end Kuasar.WarmFork

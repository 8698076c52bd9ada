import Kuasar.Data.Text

/-!
# Guest.RuntimeLog — the last error in the log of the OCI runtime

When the runtime fails, the agent looks for the reason in `log.json`, a file of JSON lines. It
reads the file backwards: from one offset after the other, the last first, it reads up to the next
newline. When that is a newline alone, what it read from the offset behind it was a whole line.

A line is parsed when the newline before it is met. There is none before the first line, and the
loop ends at offset 0: what is returned is the last error of the lines behind the first one
(`getLastRuntimeError_eq`).
-/

namespace Kuasar.RuntimeLog

structure Log where
  level : String
  msg : String
  deriving DecidableEq, Repr

inductive LogError where
  /-- unable to open OCI runtime log file -/
  | open
  /-- unable to parse log msg -/
  | parse (line : List UInt8)
  deriving DecidableEq, Repr

def newline : UInt8 := 10

/-- `str::trim`. -/
def trim (msg : String) : String := String.ofList (Text.trim msg.toList)

/-- `read_until`: up to the delimiter, and with it. -/
def readUntil (delimiter : UInt8) : List UInt8 → List UInt8
  | [] => []
  | b :: bytes => if b = delimiter then [b] else b :: readUntil delimiter bytes

/-- The loop over the offsets below `n`, the last first. What is parsed at an offset was read from
the offset behind it. -/
def scanBack (parse : List UInt8 → Option Log) (file : List UInt8) :
    ℕ → Option (List UInt8) → Except LogError String
  | 0, _ => .ok ""
  | offset + 1, preBuffer =>
    if offset = 0 then .ok ""
    else
      let buffer := readUntil newline (file.drop offset)
      match preBuffer, buffer.length with
      | some line, 1 =>
        match parse line with
        | none => .error (.parse line)
        | some log =>
          if log.level = "error" then .ok (trim log.msg)
          else scanBack parse file offset (some buffer)
      | _, _ => scanBack parse file offset (some buffer)

/-- `get_last_runtime_error`. The file is `none` if it cannot be opened. -/
def getLastRuntimeError (parse : List UInt8 → Option Log) (file : Option (List UInt8)) :
    Except LogError String :=
  match file with
  | none => .error .open
  | some bytes => scanBack parse bytes bytes.length none

/-! ## Logs -/

structure Line (parse : List UInt8 → Option Log) where
  text : List UInt8
  log : Log
  nonempty : text ≠ []
  noNewline : newline ∉ text
  parses : parse (text ++ [newline]) = some log

variable {parse : List UInt8 → Option Log}

/-- The file that has the lines. -/
def bytes (lines : List (Line parse)) : List UInt8 := lines.flatMap fun l => l.text ++ [newline]

def IsError (line : Line parse) : Prop := line.log.level = "error"

instance : DecidablePred (@IsError parse) := fun line =>
  inferInstanceAs (Decidable (line.log.level = "error"))

def lastError (lines : List (Line parse)) : String :=
  match (lines.filter fun l => decide (IsError l)).getLast? with
  | some line => trim line.log.msg
  | none => ""

@[simp] theorem bytes_concat (lines : List (Line parse)) (l : Line parse) :
    bytes (lines ++ [l]) = bytes lines ++ (l.text ++ [newline]) := by
  simp [bytes]

theorem lastError_concat (lines : List (Line parse)) (l : Line parse) :
    lastError (lines ++ [l]) = if IsError l then trim l.log.msg else lastError lines := by
  unfold lastError
  rw [List.filter_append]
  by_cases h : IsError l
  · simp [h]
  · simp [h]

/-! ## Reading backwards -/

theorem readUntil_line {text post : List UInt8} (h : newline ∉ text) :
    readUntil newline (text ++ newline :: post) = text ++ [newline] := by
  induction text with
  | nil => rfl
  | cons b text ih =>
    rw [List.mem_cons, not_or] at h
    rw [List.cons_append, readUntil, if_neg (Ne.symm h.1), ih h.2]
    rfl

section Scan

variable {file pre text post : List UInt8} {offset : ℕ} {preBuffer : Option (List UInt8)}

/-- Reading from an offset behind which there is no newline until the end of a line. -/
theorem readUntil_drop (hfile : file = pre ++ (text ++ newline :: post)) (htext : newline ∉ text) :
    readUntil newline (file.drop pre.length) = text ++ [newline] := by
  rw [hfile, List.drop_left]
  exact readUntil_line htext

/-- At an offset inside a line nothing is parsed. -/
theorem scanBack_inside {b : UInt8} (hfile : file = pre ++ (b :: text ++ newline :: post))
    (hpre : pre ≠ []) (htext : newline ∉ b :: text) :
    scanBack parse file (pre.length + 1) preBuffer =
      scanBack parse file pre.length (some (b :: text ++ [newline])) := by
  have hpos : pre.length ≠ 0 := fun h => hpre (List.length_eq_zero_iff.mp h)
  rw [scanBack, if_neg hpos, readUntil_drop hfile htext]
  cases preBuffer with
  | none => rfl
  | some line => simp

theorem scanBack_line {rest : List UInt8}
    (hfile : file = pre ++ (text ++ (rest ++ newline :: post))) (hpre : pre ≠ [])
    (htext : newline ∉ text ++ rest) :
    scanBack parse file (pre.length + text.length) (some (rest ++ [newline])) =
      scanBack parse file pre.length (some (text ++ (rest ++ [newline]))) := by
  induction text using List.reverseRecOn generalizing rest with
  | nil => rfl
  | append_singleton text b ih =>
    have hfile' : file = pre ++ (text ++ (b :: rest ++ newline :: post)) := by simpa using hfile
    have htext' : newline ∉ text ++ b :: rest := by simpa using htext
    have hstep : scanBack parse file ((pre ++ text).length + 1) (some (rest ++ [newline])) =
        scanBack parse file (pre ++ text).length (some (b :: rest ++ [newline])) := by
      apply scanBack_inside
      · rw [List.append_assoc]
        exact hfile'
      · simp [hpre]
      · intro hmem
        exact htext' (List.mem_append_right _ hmem)
    rw [List.length_append] at hstep
    rw [List.length_append, List.length_singleton, ← Nat.add_assoc, hstep, ih hfile' htext']
    simp

/-- The first line is not parsed: there is no newline before it. -/
theorem scanBack_first (hfile : file = text ++ newline :: post) (htext : newline ∉ text)
    (hoffset : offset ≤ text.length) : scanBack parse file offset preBuffer = .ok "" := by
  induction offset generalizing preBuffer with
  | zero => rfl
  | succ offset ih =>
    by_cases hzero : offset = 0
    · rw [scanBack, if_pos hzero]
    obtain ⟨b, rest, hdrop⟩ : ∃ b rest, text.drop offset = b :: rest := by
      apply List.exists_cons_of_length_pos
      rw [List.length_drop]
      omega
    have hsplit : text = text.take offset ++ b :: rest := by rw [← hdrop, List.take_append_drop]
    have hlen : (text.take offset).length = offset := by
      rw [List.length_take]
      omega
    have hstep : scanBack parse file ((text.take offset).length + 1) preBuffer =
        scanBack parse file (text.take offset).length (some (b :: rest ++ [newline])) := by
      apply scanBack_inside
      · rw [← List.append_assoc, ← hsplit]
        exact hfile
      · intro hnil
        rw [hnil] at hlen
        exact hzero hlen.symm
      · intro hmem
        apply htext
        rw [hsplit]
        exact List.mem_append_right _ hmem
    rw [hlen] at hstep
    rw [hstep]
    exact ih (by omega)

section

variable (hfile : file = pre ++ newline :: post) (hpre : pre ≠ [])

include hfile hpre

theorem readUntil_newline : readUntil newline (file.drop pre.length) = [newline] ∧ pre.length ≠ 0 :=
  ⟨readUntil_drop hfile List.not_mem_nil, fun h => hpre (List.length_eq_zero_iff.mp h)⟩

/-- At a newline with nothing read before it: the end of the file. -/
theorem scanBack_last :
    scanBack parse file (pre.length + 1) none =
      scanBack parse file pre.length (some [newline]) := by
  obtain ⟨hread, hpos⟩ := readUntil_newline hfile hpre
  rw [scanBack, if_neg hpos, hread]

/-- At the newline before a line that was read, the line is parsed. -/
theorem scanBack_newline {l : Line parse} :
    scanBack parse file (pre.length + 1) (some (l.text ++ [newline])) =
      if IsError l then .ok (trim l.log.msg)
      else scanBack parse file pre.length (some [newline]) := by
  obtain ⟨hread, hpos⟩ := readUntil_newline hfile hpre
  rw [scanBack, if_neg hpos, hread]
  simp only [List.length_singleton, l.parses]
  rfl

end

/-- From the end of the lines before a line that was read. -/
theorem scanBack_lines {first l : Line parse} {ls : List (Line parse)}
    (hfile : file = bytes (first :: ls) ++ post) :
    scanBack parse file (bytes (first :: ls)).length (some (l.text ++ [newline])) =
      .ok (lastError (ls ++ [l])) := by
  rw [lastError_concat]
  induction ls using List.reverseRecOn generalizing l post with
  | nil =>
    have hfirst : file = first.text ++ newline :: post := by simpa [bytes] using hfile
    have hlen : (bytes [first]).length = first.text.length + 1 := by simp [bytes]
    rw [hlen, scanBack_newline hfirst first.nonempty, scanBack_first hfirst first.noNewline le_rfl]
    split
    · rfl
    · rfl
  | append_singleton ls m ih =>
    have hne : bytes (first :: ls) ≠ [] := by simp [bytes]
    have hline : file = bytes (first :: ls) ++ (m.text ++ ([] ++ newline :: post)) := by
      rw [hfile, ← List.cons_append, bytes_concat]
      simp
    have hend : file = bytes (first :: ls) ++ m.text ++ newline :: post := by simpa using hline
    have hlen : (bytes (first :: (ls ++ [m]))).length =
        (bytes (first :: ls) ++ m.text).length + 1 := by
      rw [← List.cons_append, bytes_concat, ← List.append_assoc, List.length_append]
      rfl
    rw [hlen, scanBack_newline hend (by simp [hne])]
    by_cases hl : IsError l
    · rw [if_pos hl, if_pos hl]
    · -- the line is passed over, and the one before it is read
      rw [if_neg hl, if_neg hl, List.length_append]
      have hread : scanBack parse file ((bytes (first :: ls)).length + m.text.length)
          (some [newline]) = scanBack parse file (bytes (first :: ls)).length
            (some (m.text ++ [newline])) :=
        scanBack_line hline hne (by simpa using m.noNewline)
      rw [hread, ih hline, lastError_concat]

end Scan

/-- What is returned is the last error behind the first line. -/
theorem getLastRuntimeError_eq (lines : List (Line parse)) :
    getLastRuntimeError parse (some (bytes lines)) = .ok (lastError lines.tail) := by
  change scanBack parse (bytes lines) (bytes lines).length none = _
  cases lines with
  | nil => rfl
  | cons first ls =>
    rcases List.eq_nil_or_concat' ls with rfl | ⟨ls, l, rfl⟩
    · have hfile : bytes [first] = first.text ++ newline :: [] := by simp [bytes]
      have hlen : (bytes [first]).length = first.text.length + 1 := by simp [bytes]
      rw [hlen, scanBack_last hfile first.nonempty]
      exact scanBack_first hfile first.noNewline le_rfl
    · have hne : bytes (first :: ls) ≠ [] := by simp [bytes]
      have hfile : bytes (first :: (ls ++ [l])) =
          bytes (first :: ls) ++ (l.text ++ ([] ++ newline :: [])) := by
        rw [← List.cons_append, bytes_concat]
        rfl
      have hend : bytes (first :: (ls ++ [l])) =
          bytes (first :: ls) ++ l.text ++ newline :: [] := by simpa using hfile
      have hlen : (bytes (first :: (ls ++ [l]))).length =
          (bytes (first :: ls) ++ l.text).length + 1 := by
        rw [hend, List.length_append]
        rfl
      rw [hlen, scanBack_last hend (by simp [hne]), List.length_append]
      exact (scanBack_line hfile hne (by simpa using l.noNewline)).trans (scanBack_lines hfile)

/-! ## The error that is looked for -/

variable {ls : List (Line parse)}

theorem filter_isError (h : ∀ l ∈ ls, ¬ IsError l) :
    (ls.filter fun l => decide (IsError l)) = [] := by
  rw [List.filter_eq_nil_iff]
  intro l hl
  simpa using h l hl

theorem lastError_none (h : ∀ l ∈ ls, ¬ IsError l) : lastError ls = "" := by
  rw [lastError, filter_isError h]
  rfl

/-- The first line matters only if no other has the level. -/
theorem lastError_cons_of_exists {first : Line parse} (h : ∃ l ∈ ls, IsError l) :
    lastError (first :: ls) = lastError ls := by
  obtain ⟨l, hl, herror⟩ := h
  have hmem : l ∈ ls.filter fun l => decide (IsError l) := by
    rw [List.mem_filter]
    exact ⟨hl, by simpa using herror⟩
  obtain ⟨e, es, hes⟩ := List.exists_cons_of_ne_nil (List.ne_nil_of_mem hmem)
  unfold lastError
  by_cases hfirst : IsError first
  · rw [List.filter_cons_of_pos (by simpa using hfirst), hes, List.getLast?_cons_cons]
  · rw [List.filter_cons_of_neg (by simpa using hfirst)]

theorem lastError_cons_of_none {first : Line parse} (h : ∀ l ∈ ls, ¬ IsError l) :
    lastError (first :: ls) = if IsError first then trim first.log.msg else "" := by
  unfold lastError
  rw [List.filter_cons, filter_isError h]
  by_cases hfirst : IsError first
  · simp [hfirst]
  · simp [hfirst]

/-- **The last runtime error.** The trimmed message of the last line whose level is error is
returned unless that is the first line of the log and its message is not blank. -/
theorem last_error_found_iff (lines : List (Line parse)) :
    getLastRuntimeError parse (some (bytes lines)) = .ok (lastError lines) ↔
      ∀ first ∈ lines.head?, IsError first → trim first.log.msg ≠ "" →
        ∃ l ∈ lines.tail, IsError l := by
  rw [getLastRuntimeError_eq, Except.ok.injEq]
  cases lines with
  | nil => simp
  | cons first ls =>
    simp only [List.tail_cons, List.head?_cons, Option.mem_some, forall_eq']
    by_cases hls : ∃ l ∈ ls, IsError l
    · simp [lastError_cons_of_exists hls, hls]
    · have hnone : ∀ l ∈ ls, ¬ IsError l := by
        intro l hl herror
        exact hls ⟨l, hl, herror⟩
      rw [lastError_cons_of_none hnone, lastError_none hnone]
      by_cases hfirst : IsError first
      · rw [if_pos hfirst]
        constructor
        · intro hblank _ hmsg
          exact absurd hblank.symm hmsg
        · intro hfound
          by_contra hmsg
          exact hls (hfound hfirst (Ne.symm hmsg))
      · simp [hfirst]

/-- A failure that is the only line of the log. -/
theorem first_error_lost :
    let text := "\x7b\"level\":\"error\",\"msg\":\"no such file\"\x7d".toList.map
      fun c => UInt8.ofNat c.toNat
    let parse := fun line => if line = text ++ [newline] then
      some (Log.mk "error" "no such file") else none
    ∃ line : Line parse, line.text = text ∧ line.log.level = "error" ∧
      lastError [line] = "no such file" ∧
      getLastRuntimeError parse (some (bytes [line])) = .ok "" := by
  intro text parse
  refine ⟨⟨text, ⟨"error", "no such file"⟩, by decide, by decide, if_pos rfl⟩, rfl, rfl, ?_, ?_⟩
  · decide
  · decide

end Kuasar.RuntimeLog

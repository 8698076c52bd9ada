import Kuasar.Data.MachineInt
import Kuasar.Data.Streams
import Kuasar.Data.Windows

/-!
# Ctl.ExitCode — the exit code at the end of the output of a command

`kuasar-ctl exec` runs a command through the debug console of a guest. The console is one stream
of bytes: the output of the command and, after it, a line that the wrapper of the command prints,
with a marker, the token of this execution and the exit code. The reader prints the stream while it
arrives and must hold back the marker line, which it can only tell at the end of the stream: it
always keeps as many bytes as the longest marker line has.

`Reading` is the invariant of the reading loop: what was printed and what is kept are the stream
up to here, cut at the last `max_marker_len` bytes. The marker is then found at the end, whatever
the output has in it (`finish_marker`).
-/

namespace Kuasar.Ctl

def ascii (cs : List Char) : List UInt8 := cs.map fun c => UInt8.ofNat c.toNat

/-- `EXIT_MARKER`. -/
def exitMarker : List UInt8 := ascii "__KSR_EXIT__".toList

def colon : UInt8 := 58
def carriageReturn : UInt8 := 13
def lineFeed : UInt8 := 10

/-- `EXIT_MARKER:token:`. -/
def markerPrefix (token : List UInt8) : List UInt8 := exitMarker ++ colon :: token ++ [colon]

/-- What ends the marker line: a terminal in between makes `\r\n` of the `\n` that was printed. -/
inductive LineEnding where
  | lf
  | crlf
  deriving DecidableEq, Repr

def LineEnding.bytes : LineEnding → List UInt8
  | .lf => [lineFeed]
  | .crlf => [carriageReturn, lineFeed]

/-- The line that the wrapper of the command prints when the command has ended. -/
def markerLine (token : List UInt8) (code : ℕ) (eol : LineEnding) : List UInt8 :=
  markerPrefix token ++ (ascii (Nat.toDigits 10 code) ++ eol.bytes)

/-! ## The parser -/

/-- `rfind_subslice`. -/
def rfindSubslice (haystack needle : List UInt8) : Option ℕ :=
  if needle = [] then some haystack.length else Windows.lastOccurrence haystack needle

/-- `u8::is_ascii_digit`. -/
def isAsciiDigit (b : UInt8) : Bool := 48 ≤ b.toNat && b.toNat ≤ 57

/-- The number that decimal digits stand for, if it is an `i32`. -/
def parseI32 (digits : List UInt8) : Option ℤ :=
  MachineInt.checked 32 (Nat.ofDigitChars 10 (digits.map fun b => Char.ofNat b.toNat) 0)

def stripLineEnding (suffix : List UInt8) : List UInt8 :=
  if [carriageReturn, lineFeed] <:+ suffix then suffix.take (suffix.length - 2)
  else if [lineFeed] <:+ suffix then suffix.take (suffix.length - 1)
  else suffix

structure ExitCodeParser where
  tail : List UInt8
  markerPrefix : List UInt8
  maxMarkerLen : ℕ

structure FinishResult where
  output : List UInt8
  exitCode : Option ℤ
  deriving DecidableEq, Repr

namespace ExitCodeParser

def new (token : List UInt8) : ExitCodeParser where
  tail := []
  markerPrefix := Ctl.markerPrefix token
  maxMarkerLen := (Ctl.markerPrefix token).length + 5

/-- The next bytes of the stream: those that can be printed, and the parser with the others. -/
def push (p : ExitCodeParser) (chunk : List UInt8) : List UInt8 × ExitCodeParser :=
  let tail := p.tail ++ chunk
  if tail.length ≤ p.maxMarkerLen then ([], { p with tail := tail })
  else
    let splitAt := tail.length - p.maxMarkerLen
    (tail.take splitAt, { p with tail := tail.drop splitAt })

/-- The end of the stream. -/
def finish (p : ExitCodeParser) : FinishResult :=
  match rfindSubslice p.tail p.markerPrefix with
  | none => ⟨p.tail, none⟩
  | some start =>
    let digits := stripLineEnding (p.tail.drop (start + p.markerPrefix.length))
    if digits ≠ [] ∧ digits.all isAsciiDigit then ⟨p.tail.take start, parseI32 digits⟩
    else ⟨p.tail, none⟩

end ExitCodeParser

/-! ## The execution -/

/-- Standard output: what was printed, and how many bytes it still takes if it is to fail. -/
structure Stdout where
  printed : List UInt8 := []
  room : Option ℕ := none

/-- `write_stdout`; whether all bytes were written. -/
def Stdout.write (o : Stdout) (bytes : List UInt8) : Stdout × Bool :=
  if bytes = [] then (o, true)
  else
    match o.room with
    | none => ({ o with printed := o.printed ++ bytes }, true)
    | some n =>
      if bytes.length ≤ n then
        ({ printed := o.printed ++ bytes, room := some (n - bytes.length) }, true)
      else ({ printed := o.printed ++ bytes.take n, room := some 0 }, false)

/-- Why an execution fails. -/
inductive ExecError where
  | readError (reason : String)
  | writeError
  | noExitCode
  deriving DecidableEq, Repr

/-- The debug console as the reader sees it: what each read returns, and how the stream ends. -/
structure Console where
  reads : Chunked UInt8
  failure : Option String := none

def readLoop (failure : Option String) :
    List (List UInt8) → ExitCodeParser → Stdout → Stdout × Except ExecError ExitCodeParser
  | [], p, o =>
    match failure with
    | none => (o, .ok p)
    | some reason => (o, .error (.readError reason))
  | chunk :: reads, p, o =>
    let pushed := p.push chunk
    let printed := o.write pushed.1
    if printed.2 then readLoop failure reads pushed.2 printed.1
    else (printed.1, .error .writeError)

/-- `execute_non_interactive`, after the command was sent. -/
def executeNonInteractive (token : List UInt8) (c : Console) (o : Stdout) :
    Stdout × Except ExecError ℤ :=
  match readLoop c.failure c.reads.chunks (.new token) o with
  | (o', .error e) => (o', .error e)
  | (o', .ok p) =>
    let finished := p.finish
    let printed := o'.write finished.output
    if printed.2 then
      match finished.exitCode with
      | some code => (printed.1, .ok code)
      | none => (printed.1, .error .noExitCode)
    else (printed.1, .error .writeError)

/-! ## What the parser keeps -/

theorem push_eq (p : ExitCodeParser) (chunk : List UInt8) :
    p.push chunk = ((p.tail ++ chunk).rdrop p.maxMarkerLen,
      { p with tail := (p.tail ++ chunk).rtake p.maxMarkerLen }) := by
  unfold ExitCodeParser.push
  dsimp only
  split
  · rename_i hshort
    rw [Windows.rdrop_of_length_le hshort, Windows.rtake_of_length_le hshort]
  · rfl

/-- Standard output that does not fail. -/
theorem write_open (printed bytes : List UInt8) :
    Stdout.write ⟨printed, none⟩ bytes = (⟨printed ++ bytes, none⟩, true) := by
  unfold Stdout.write
  split
  · rename_i hnil
    rw [hnil, List.append_nil]
  · rfl

/-- The parser of this token and what was printed, after `seen` arrived. -/
structure Reading (token seen : List UInt8) (p : ExitCodeParser) (printed : List UInt8) : Prop where
  markerPrefix : p.markerPrefix = Ctl.markerPrefix token
  maxMarkerLen : p.maxMarkerLen = (Ctl.markerPrefix token).length + 5
  tail : p.tail = seen.rtake p.maxMarkerLen
  printed : printed = seen.rdrop p.maxMarkerLen

theorem reading_new (token : List UInt8) : Reading token [] (.new token) [] where
  markerPrefix := rfl
  maxMarkerLen := rfl
  tail := by rw [List.rtake_nil]; rfl
  printed := by rw [List.rdrop_nil]

variable {token printed : List UInt8} {p : ExitCodeParser} {code : ℕ}

/-- One read. -/
theorem Reading.push {seen : List UInt8} (h : Reading token seen p printed) (chunk : List UInt8) :
    Reading token (seen ++ chunk) (p.push chunk).2 (printed ++ (p.push chunk).1) := by
  rw [push_eq]
  refine ⟨h.markerPrefix, h.maxMarkerLen, ?_, ?_⟩
  · rw [h.tail, Windows.rtake_rtake_append]
  · rw [h.tail, h.printed, Windows.rdrop_append_rdrop]

/-- The whole loop, on a stream that is closed at its end. -/
theorem readLoop_reading {seen : List UInt8} (h : Reading token seen p printed)
    (reads : List (List UInt8)) :
    ∃ p' printed', readLoop none reads p ⟨printed, none⟩ = (⟨printed', none⟩, .ok p') ∧
      Reading token (seen ++ reads.flatten) p' printed' := by
  induction reads generalizing seen printed p with
  | nil => exact ⟨p, printed, rfl, by simpa using h⟩
  | cons chunk reads ih =>
    obtain ⟨p', printed', hloop, hreading⟩ := ih (h.push chunk)
    refine ⟨p', printed', ?_, ?_⟩
    · rw [readLoop, write_open]
      exact hloop
    · rw [List.flatten_cons, ← List.append_assoc]
      exact hreading

/-! ## The marker line -/

theorem toNat_ofNat_of_digit {c : Char} (h : c.isDigit = true) :
    (UInt8.ofNat c.toNat).toNat = c.toNat ∧ 48 ≤ c.toNat ∧ c.toNat ≤ 57 := by
  rw [Char.isDigit, Bool.and_eq_true, decide_eq_true_iff, decide_eq_true_iff] at h
  have hlo : 48 ≤ c.toNat := UInt32.le_iff_toNat_le.mp h.1
  have hhi : c.toNat ≤ 57 := UInt32.le_iff_toNat_le.mp h.2
  refine ⟨?_, hlo, hhi⟩
  rw [UInt8.toNat_ofNat']
  omega

theorem isAsciiDigit_of_mem {b : UInt8} (h : b ∈ ascii (Nat.toDigits 10 code)) :
    isAsciiDigit b = true := by
  obtain ⟨c, hc, rfl⟩ := List.mem_map.mp h
  obtain ⟨hval, hlo, hhi⟩ :=
    toNat_ofNat_of_digit (Nat.isDigit_of_mem_toDigits (by omega) (by omega) hc)
  simp only [isAsciiDigit, hval, Bool.and_eq_true, decide_eq_true_iff]
  exact ⟨hlo, hhi⟩

theorem not_mem_digits {b : UInt8} (h : isAsciiDigit b = false) :
    b ∉ ascii (Nat.toDigits 10 code) := by
  intro hmem
  rw [isAsciiDigit_of_mem hmem] at h
  exact Bool.noConfusion h

theorem parseI32_digits (h : MachineInt.Fits 32 code) :
    parseI32 (ascii (Nat.toDigits 10 code)) = some (code : ℤ) := by
  have hchars : (ascii (Nat.toDigits 10 code)).map (fun b => Char.ofNat b.toNat) =
      Nat.toDigits 10 code := by
    rw [ascii, List.map_map]
    refine (List.map_congr_left fun c hc => ?_).trans (List.map_id _)
    have hdigit := Nat.isDigit_of_mem_toDigits (by omega) (by omega) hc
    show Char.ofNat (UInt8.ofNat c.toNat).toNat = c
    rw [(toNat_ofNat_of_digit hdigit).1, Char.ofNat_toNat]
  rw [parseI32, hchars, Nat.ofDigitChars_ten_toDigits, MachineInt.checked_of_fits h]

theorem stripLineEnding_append {digits : List UInt8} (hcr : carriageReturn ∉ digits)
    (eol : LineEnding) : stripLineEnding (digits ++ eol.bytes) = digits := by
  unfold stripLineEnding
  cases eol with
  | crlf =>
    rw [LineEnding.bytes, if_pos (List.suffix_append _ _)]
    simp
  | lf =>
    have hno : ¬ [carriageReturn, lineFeed] <:+ digits ++ [lineFeed] := by
      rintro ⟨front, hfront⟩
      have hsame : front ++ [carriageReturn] = digits := by
        refine (List.append_left_inj [lineFeed]).mp ?_
        simpa using hfront
      exact hcr (by simp [← hsame])
    rw [LineEnding.bytes, if_neg hno, if_pos (List.suffix_append _ _)]
    simp

theorem length_markerLine_le (h : code ≤ 255) (eol : LineEnding) :
    (markerLine token code eol).length ≤ (markerPrefix token).length + 5 := by
  have hdigits : (Nat.toDigits 10 code).length ≤ 3 :=
    (Nat.length_toDigits_le_iff (by omega) (by omega)).mpr (by omega)
  have heol : eol.bytes.length ≤ 2 := by
    cases eol <;> decide
  simp only [markerLine, ascii, List.length_append, List.length_map]
  omega

/-- The marker line is found at the end of the stream, also after an output that has markers in
it: what is left of the output and the exit code. -/
theorem finish_marker {output : List UInt8} {eol : LineEnding} (hcode : code ≤ 255)
    (h : Reading token (output ++ markerLine token code eol) p printed) :
    ∃ kept, p.finish = ⟨kept, some (code : ℤ)⟩ ∧ printed ++ kept = output := by
  have hfits : (markerLine token code eol).length ≤ p.maxMarkerLen := by
    rw [h.maxMarkerLen]
    exact length_markerLine_le hcode eol
  refine ⟨output.rtake (p.maxMarkerLen - (markerLine token code eol).length), ?_, ?_⟩
  · generalize hkept : output.rtake (p.maxMarkerLen - (markerLine token code eol).length) = kept
    have htail : p.tail =
        kept ++ markerPrefix token ++ (ascii (Nat.toDigits 10 code) ++ eol.bytes) := by
      rw [h.tail, Windows.rtake_append hfits, hkept, markerLine, List.append_assoc]
    -- no byte of the exit code or of the line ending is the colon that ends the marker
    have hcolon : colon ∉ ascii (Nat.toDigits 10 code) ++ eol.bytes := by
      rw [List.mem_append, not_or]
      refine ⟨not_mem_digits (by decide), ?_⟩
      cases eol <;> decide
    have hfind : rfindSubslice p.tail p.markerPrefix = some kept.length := by
      rw [rfindSubslice, h.markerPrefix, htail, if_neg (by simp [markerPrefix])]
      exact Windows.lastOccurrence_append hcolon
    have hdrop : p.tail.drop (kept.length + p.markerPrefix.length) =
        ascii (Nat.toDigits 10 code) ++ eol.bytes := by
      rw [htail, h.markerPrefix, ← List.length_append, List.drop_left]
    have hstrip : stripLineEnding (p.tail.drop (kept.length + p.markerPrefix.length)) =
        ascii (Nat.toDigits 10 code) := by
      rw [hdrop]
      exact stripLineEnding_append (not_mem_digits (by decide)) eol
    have hdigits : ascii (Nat.toDigits 10 code) ≠ [] ∧
        (ascii (Nat.toDigits 10 code)).all isAsciiDigit = true := by
      constructor
      · simp [ascii]
      · exact List.all_eq_true.mpr fun b hb => isAsciiDigit_of_mem hb
    have hparse : parseI32 (ascii (Nat.toDigits 10 code)) = some (code : ℤ) := by
      apply parseI32_digits
      constructor <;> omega
    have htake : p.tail.take kept.length = kept := by
      rw [htail, List.append_assoc, List.take_left]
    simp only [ExitCodeParser.finish, hfind, hstrip]
    rw [if_pos hdigits, htake, hparse]
  · rw [h.printed, Windows.rdrop_append hfits, Windows.rdrop_append_rtake]

/-- The execution prints the output of the command and returns its exit code, whatever the output
is and however the stream is cut into reads. -/
theorem executeNonInteractive_marker (token output : List UInt8) {code : ℕ} (hcode : code ≤ 255)
    (eol : LineEnding) (reads : Chunked UInt8)
    (hcontent : reads.content = output ++ markerLine token code eol) :
    executeNonInteractive token ⟨reads, none⟩ {} = (⟨output, none⟩, .ok (code : ℤ)) := by
  obtain ⟨p, printed, hloop, hreading⟩ := readLoop_reading (reading_new token) reads.chunks
  rw [List.nil_append, ← Chunked.content, hcontent] at hreading
  obtain ⟨kept, hfinish, hall⟩ := finish_marker hcode hreading
  unfold executeNonInteractive
  rw [hloop]
  simp only [hfinish, write_open, hall, if_true]

/-- An output that ends in a marker line of its own, read in four parts. -/
theorem executeNonInteractive_marker_in_output :
    executeNonInteractive (ascii ['7'])
      ⟨⟨[markerLine (ascii ['7']) 3 .lf, markerPrefix (ascii ['7']), [52, 50, 13], [10]],
        by decide⟩, none⟩ {} = (⟨markerLine (ascii ['7']) 3 .lf, none⟩, .ok 42) :=
  executeNonInteractive_marker _ _ (by decide) .crlf _ (by decide)

/-! ## Executions that fail

Whatever fails, nothing is printed that the stream did not carry, and nothing out of order. -/

/-- A write prints the front of the bytes, and all of them if it succeeds. -/
theorem write_printed (o : Stdout) (bytes : List UInt8) :
    ∃ front, front <+: bytes ∧ (o.write bytes).1.printed = o.printed ++ front ∧
      ((o.write bytes).2 = true → front = bytes) := by
  unfold Stdout.write
  split
  · rename_i hnil
    exact ⟨[], List.nil_prefix, by simp, fun _ => hnil.symm⟩
  · split
    · exact ⟨bytes, List.prefix_refl _, rfl, fun _ => rfl⟩
    · rename_i n _
      split
      · exact ⟨bytes, List.prefix_refl _, rfl, fun _ => rfl⟩
      · exact ⟨bytes.take n, List.take_prefix n bytes, rfl, nofun⟩

theorem push_append (p : ExitCodeParser) (chunk : List UInt8) :
    (p.push chunk).1 ++ (p.push chunk).2.tail = p.tail ++ chunk := by
  rw [push_eq]
  exact Windows.rdrop_append_rtake _ _

theorem finish_output_front (p : ExitCodeParser) : p.finish.output <+: p.tail := by
  unfold ExitCodeParser.finish
  split
  · exact List.prefix_refl _
  · dsimp only
    split
    · exact List.take_prefix _ _
    · exact List.prefix_refl _

/-- The loop prints the front of what was kept and what arrived; if it comes to its end, the parser
has the rest. -/
theorem readLoop_printed (failure : Option String) (reads : List (List UInt8))
    (p : ExitCodeParser) (o : Stdout) :
    ∃ front rest, (readLoop failure reads p o).1.printed = o.printed ++ front ∧
      front ++ rest = p.tail ++ reads.flatten ∧
      ∀ p', (readLoop failure reads p o).2 = .ok p' → p'.tail = rest := by
  induction reads generalizing p o with
  | nil =>
    refine ⟨[], p.tail, ?_, by simp, ?_⟩
    · unfold readLoop
      split <;> simp
    · unfold readLoop
      split
      · rintro p' ⟨⟩
        rfl
      · exact nofun
  | cons chunk reads ih =>
    obtain ⟨front, hfront, hprinted, hall⟩ := write_printed o (p.push chunk).1
    rw [readLoop]
    split
    · rename_i hwritten
      obtain ⟨front', rest, hprinted', hsplit, hend⟩ :=
        ih (p.push chunk).2 (o.write (p.push chunk).1).1
      refine ⟨front ++ front', rest, ?_, ?_, hend⟩
      · rw [hprinted', hprinted, List.append_assoc]
      · rw [List.append_assoc, hsplit, hall hwritten, ← List.append_assoc, push_append,
          List.append_assoc, List.flatten_cons]
    · -- the write failed part way
      obtain ⟨back, hback⟩ := hfront
      refine ⟨front, back ++ (p.push chunk).2.tail ++ reads.flatten, hprinted, ?_, nofun⟩
      rw [← List.append_assoc, ← List.append_assoc, hback, push_append, List.append_assoc,
        List.flatten_cons]

/-- Whatever fails, the bytes that were printed are the front of what the stream carried. -/
theorem executeNonInteractive_printed (token : List UInt8) (c : Console) (room : Option ℕ) :
    (executeNonInteractive token c ⟨[], room⟩).1.printed <+: c.reads.content := by
  obtain ⟨front, rest, hprinted, hsplit, hend⟩ :=
    readLoop_printed c.failure c.reads.chunks (.new token) ⟨[], room⟩
  have hcontent : front ++ rest = c.reads.content := hsplit
  have hfront : (readLoop c.failure c.reads.chunks (.new token) ⟨[], room⟩).1.printed = front :=
    hprinted
  unfold executeNonInteractive
  split
  · rename_i o' e hloop
    rw [hloop] at hfront
    exact ⟨rest, by rw [← hcontent, ← hfront]⟩
  · rename_i o' p hloop
    rw [hloop] at hfront hend
    obtain ⟨front', hfront', hprinted', -⟩ := write_printed o' p.finish.output
    have hall : (o'.write p.finish.output).1.printed <+: c.reads.content := by
      obtain ⟨back, hback⟩ := hfront'.trans (finish_output_front p)
      refine ⟨back, ?_⟩
      rw [hprinted', List.append_assoc, hback, hend p rfl, ← hcontent]
      exact congrArg (· ++ rest) hfront
    dsimp only
    split
    · split <;> exact hall
    · exact hall

end Kuasar.Ctl

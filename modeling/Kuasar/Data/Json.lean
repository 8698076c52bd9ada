import Mathlib.Tactic.Common

/-!
# Data.Json — strings and objects of strings as JSON text

The part of JSON that flat messages are written in: strings with their escapes, and
objects whose values are strings. A writer yields bytes; a reader takes the bytes it
understands from the front and returns the rest, so that readers are chained the way
the writers are appended (`readQuoted_quoted`, `readPairs_pairs`).
-/

namespace Json

def text (s : String) : List UInt8 := s.toUTF8.data.toList

/-! ## Strings -/

/-- The digit of a hexadecimal number below sixteen. -/
def hexDigit (n : UInt8) : UInt8 := if n < 10 then 48 + n else 87 + n

def hexValue (d : UInt8) : UInt8 := if d < 58 then d - 48 else d - 87

/-- The control bytes with a short escape, each with the letter of its escape. -/
def shortEscapes : List (UInt8 × UInt8) :=
  [(34, 34), (92, 92), (8, 98), (9, 116), (10, 110), (12, 102), (13, 114)]

/-- A byte inside a string: as it is, with its short escape, or by number. -/
def escape (b : UInt8) : List UInt8 :=
  match shortEscapes.lookup b with
  | some e => [92, e]
  | none => if b < 32 then [92, 117, 48, 48, hexDigit (b / 16), hexDigit (b % 16)] else [b]

/-- The byte that a letter after a backslash stands for. -/
def unescape (e : UInt8) : Option UInt8 := (shortEscapes.map Prod.swap).lookup e

/-- The contents of a string up to its closing quote, and what follows. -/
def scan : List UInt8 → Option (List UInt8 × List UInt8)
  | [] => none
  | b :: rest =>
    if b = 34 then some ([], rest)
    else if b = 92 then
      match rest with
      | [] => none
      | e :: rest =>
        if e = 117 then
          match rest with
          | 48 :: 48 :: h :: l :: rest =>
            (scan rest).map fun r => ((hexValue h * 16 + hexValue l) :: r.1, r.2)
          | _ => none
        else (unescape e).bind fun b => (scan rest).map fun r => (b :: r.1, r.2)
    else (scan rest).map fun r => (b :: r.1, r.2)

theorem lookup_shortEscapes {b e : UInt8} (h : shortEscapes.lookup b = some e) :
    e ≠ 117 ∧ unescape e = some b := by
  have hmem : (b, e) ∈ shortEscapes := by
    rw [List.lookup_eq_some_iff] at h
    obtain ⟨l, k, hl, -⟩ := h
    rw [hl]
    simp
  simp only [shortEscapes, List.mem_cons, Prod.mk.injEq, List.not_mem_nil, or_false] at hmem
  rcases hmem with ⟨rfl, rfl⟩ | ⟨rfl, rfl⟩ | ⟨rfl, rfl⟩ | ⟨rfl, rfl⟩ | ⟨rfl, rfl⟩ | ⟨rfl, rfl⟩ |
    ⟨rfl, rfl⟩ <;> exact ⟨by decide, by decide⟩

/-- A control byte that is written by number is read back. -/
theorem hexValue_hexDigit {b : UInt8} (h : b < 32) :
    hexValue (hexDigit (b / 16)) * 16 + hexValue (hexDigit (b % 16)) = b := by
  have hall : ∀ n < 32, hexValue (hexDigit (UInt8.ofNat n / 16)) * 16 +
      hexValue (hexDigit (UInt8.ofNat n % 16)) = UInt8.ofNat n := by decide
  have := hall b.toNat (by simpa [UInt8.lt_iff_toNat_lt] using h)
  rwa [UInt8.ofNat_toNat] at this

theorem scan_escape (b : UInt8) (rest : List UInt8) :
    scan (escape b ++ rest) = (scan rest).map fun r => (b :: r.1, r.2) := by
  unfold escape
  split
  · rename_i e he
    obtain ⟨hne, hun⟩ := lookup_shortEscapes he
    rw [List.cons_append, List.cons_append, List.nil_append, scan.eq_def]
    simp [hne, hun]
  · rename_i hnone
    split
    · rename_i hlow
      simp [scan, hexValue_hexDigit hlow]
    · -- neither of the two bytes that end or escape
      have hquote : b ≠ 34 := by
        rintro rfl
        exact absurd hnone (by decide)
      have hslash : b ≠ 92 := by
        rintro rfl
        exact absurd hnone (by decide)
      rw [List.cons_append, List.nil_append, scan.eq_def]
      simp [hquote, hslash]

theorem scan_escapes (bs rest : List UInt8) :
    scan (bs.flatMap escape ++ 34 :: rest) = some (bs, rest) := by
  induction bs with
  | nil =>
    rw [List.flatMap_nil, List.nil_append, scan.eq_def]
    simp
  | cons b bs ih => rw [List.flatMap_cons, List.append_assoc, scan_escape, ih, Option.map_some]

def quoted (s : String) : List UInt8 := 34 :: ((text s).flatMap escape ++ [34])

def readQuoted : List UInt8 → Option (String × List UInt8)
  | [] => none
  | b :: bs =>
    if b = 34 then
      (scan bs).bind fun r => (String.fromUTF8? ⟨r.1.toArray⟩).map fun s => (s, r.2)
    else none

theorem fromUTF8?_text (s : String) : String.fromUTF8? ⟨(text s).toArray⟩ = some s := by
  have hbytes : (⟨(text s).toArray⟩ : ByteArray) = s.toUTF8 := by simp [text]
  rw [hbytes]
  unfold String.fromUTF8?
  rw [dif_pos (show s.toUTF8.IsValidUTF8 from s.isValidUTF8)]
  rfl

theorem readQuoted_quoted (s : String) (rest : List UInt8) :
    readQuoted (quoted s ++ rest) = some (s, rest) := by
  have hscan := scan_escapes (text s) rest
  simp only [quoted, List.cons_append, List.append_assoc, List.nil_append, readQuoted, if_true,
    hscan, Option.bind_some, fromUTF8?_text, Option.map_some]

theorem length_le_flatMap_escape (bs : List UInt8) : bs.length ≤ (bs.flatMap escape).length := by
  induction bs with
  | nil => simp
  | cons b bs ih =>
    have hpos : 1 ≤ (escape b).length := by
      unfold escape
      split
      · simp
      · split <;> simp
    rw [List.flatMap_cons, List.length_append, List.length_cons]
    omega

/-- A string is written in at least as many bytes as it has. -/
theorem length_text_le_quoted (s : String) : (text s).length ≤ (quoted s).length := by
  have := length_le_flatMap_escape (text s)
  rw [quoted, List.length_cons, List.length_append]
  omega

/-! ## Fixed text -/

/-- Read a fixed text. -/
def expect : List UInt8 → List UInt8 → Option (List UInt8)
  | [], bs => some bs
  | _ :: _, [] => none
  | a :: as, b :: bs => if a = b then expect as bs else none

@[simp] theorem expect_append (as rest : List UInt8) : expect as (as ++ rest) = some rest := by
  induction as with
  | nil => rfl
  | cons a as ih => simp [expect, ih]

/-! ## Objects of strings -/

/-- The entries of an object, and its closing brace. -/
def pairs : List (String × String) → List UInt8
  | [] => [125]
  | [(k, v)] => quoted k ++ 58 :: (quoted v ++ [125])
  | (k, v) :: p :: ps => quoted k ++ 58 :: (quoted v ++ 44 :: pairs (p :: ps))

/-- Read entries that are separated by commas, the first of which is there. There are at
most `fuel` of them. -/
def readEntries : ℕ → List UInt8 → Option (List (String × String) × List UInt8)
  | 0, _ => none
  | fuel + 1, bs =>
    match readQuoted bs with
    | some (k, 58 :: bs) =>
      match readQuoted bs with
      | some (v, 125 :: bs) => some ([(k, v)], bs)
      | some (v, 44 :: bs) => (readEntries fuel bs).map fun r => ((k, v) :: r.1, r.2)
      | _ => none
    | _ => none

/-- Read the entries of an object, and its closing brace. -/
def readPairs : List UInt8 → Option (List (String × String) × List UInt8)
  | 125 :: bs => some ([], bs)
  | bs => readEntries bs.length bs

theorem readEntries_pairs {fuel : ℕ} {p : String × String} {ps : List (String × String)}
    (hfuel : ps.length < fuel) (rest : List UInt8) :
    readEntries fuel (pairs (p :: ps) ++ rest) = some (p :: ps, rest) := by
  induction ps generalizing fuel p with
  | nil =>
    obtain ⟨fuel, rfl⟩ : ∃ n, fuel = n + 1 := ⟨fuel - 1, by omega⟩
    simp [pairs, readEntries, readQuoted_quoted]
  | cons q ps ih =>
    obtain ⟨fuel, rfl⟩ : ∃ n, fuel = n + 1 := ⟨fuel - 1, by omega⟩
    have hlt : ps.length < fuel := by
      rw [List.length_cons] at hfuel
      omega
    simp [pairs, readEntries, readQuoted_quoted, ih hlt]

theorem length_lt_length_pairs (ps : List (String × String)) : ps.length < (pairs ps).length := by
  induction ps with
  | nil => decide
  | cons p ps ih =>
    cases ps with
    | nil =>
      simp only [pairs, List.length_cons, List.length_append, List.length_nil]
      omega
    | cons q ps =>
      simp only [pairs, List.length_append, List.length_cons] at ih ⊢
      omega

theorem readPairs_pairs (ps : List (String × String)) (rest : List UInt8) :
    readPairs (pairs ps ++ rest) = some (ps, rest) := by
  cases ps with
  | nil => rfl
  | cons p ps =>
    have hfuel : ps.length < (pairs (p :: ps) ++ rest).length := by
      have := length_lt_length_pairs (p :: ps)
      rw [List.length_append]
      rw [List.length_cons] at this
      omega
    -- the first entry opens with a quote
    obtain ⟨bs, hbs⟩ : ∃ bs, pairs (p :: ps) ++ rest = 34 :: bs := by
      cases ps with
      | nil | cons q ps => exact ⟨_, rfl⟩
    have hentries := readEntries_pairs hfuel rest (p := p)
    rw [hbs] at hentries ⊢
    exact hentries

end Json

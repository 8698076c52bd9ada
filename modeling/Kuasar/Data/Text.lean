import Mathlib.Data.List.DropRight

/-!
# Data.Text — texts as lists of characters

White space and what is cut at it: the text without white space at its ends, its words, its lines.
Words that are printed with a blank between them, and lines that are printed with a newline behind
each, are read back (`words_intercalate`, `lines_printed`). `replaceAll` replaces the occurrences of
a pattern from left to right; what was put in is not looked at again.
-/

namespace Text

def isWhite (c : Char) : Bool :=
  decide (9 ≤ c.toNat ∧ c.toNat ≤ 13 ∨ c.toNat = 0x20 ∨ c.toNat = 0x85 ∨ c.toNat = 0xA0 ∨
    c.toNat = 0x1680 ∨ 0x2000 ≤ c.toNat ∧ c.toNat ≤ 0x200A ∨ c.toNat = 0x2028 ∨
    c.toNat = 0x2029 ∨ c.toNat = 0x202F ∨ c.toNat = 0x205F ∨ c.toNat = 0x3000)

/-- The text without the white space at its two ends. -/
def trim (text : List Char) : List Char := (text.dropWhile isWhite).rdropWhile isWhite

/-- Only white space. -/
def Blank (text : List Char) : Prop := ∀ c ∈ text, isWhite c = true

instance (text : List Char) : Decidable (Blank text) :=
  List.decidableBAll (fun c => isWhite c = true) text

variable {text pattern replacement : List Char} {c : Char}

theorem trim_eq_nil_of_blank (h : Blank text) : trim text = [] := by
  rw [trim, List.dropWhile_eq_nil_iff.mpr h, List.rdropWhile_nil]

theorem blank_of_trim_eq_nil (h : trim text = []) : Blank text := by
  rw [trim, List.rdropWhile_eq_nil_iff] at h
  intro c hc
  have hsplit : text.takeWhile isWhite ++ text.dropWhile isWhite = text :=
    List.takeWhile_append_dropWhile
  rw [← hsplit, List.mem_append] at hc
  rcases hc with hc | hc
  · exact List.mem_takeWhile_imp hc
  · exact h c hc

/-- A text with white space around it. -/
theorem trim_padded {before core after : List Char} (hbefore : Blank before) (hafter : Blank after)
    (hcore : ∀ c ∈ core, isWhite c = false) : trim (before ++ core ++ after) = core := by
  cases core with
  | nil =>
    apply trim_eq_nil_of_blank
    intro c hc
    rw [List.append_nil, List.mem_append] at hc
    rcases hc with hc | hc
    · exact hbefore c hc
    · exact hafter c hc
  | cons c core =>
    have hc : ¬ isWhite c = true := by simp [hcore c List.mem_cons_self]
    rw [trim, List.append_assoc, List.dropWhile_append_of_pos hbefore, List.cons_append,
      List.dropWhile_cons_of_neg hc, ← List.cons_append]
    induction after using List.reverseRecOn with
    | nil =>
      rw [List.append_nil, List.rdropWhile_eq_self_iff]
      intro hne
      simp [hcore _ (List.getLast_mem hne)]
    | append_singleton after a ih =>
      rw [← List.append_assoc, List.rdropWhile_concat_pos _ _ _ (hafter a (by simp))]
      exact ih fun x hx => hafter x (List.mem_append_left _ hx)

theorem not_isWhite_of_isDigit (h : c.isDigit = true) : isWhite c = false := by
  have hrange : 48 ≤ c.toNat ∧ c.toNat ≤ 57 := Char.isDigit_iff_toNat.mp h
  rw [isWhite, decide_eq_false_iff_not]
  omega

theorem mem_intercalate {sep : Char} {parts : List (List Char)} (h : c ∈ [sep].intercalate parts) :
    c = sep ∨ ∃ part ∈ parts, c ∈ part := by
  rw [List.intercalate, List.mem_flatten] at h
  obtain ⟨part, hpart, hc⟩ := h
  obtain ⟨i, hi⟩ := List.mem_iff_getElem?.mp hpart
  rw [List.getElem?_intersperse] at hi
  split at hi
  · exact Or.inr ⟨part, List.mem_of_getElem? hi, hc⟩
  · split at hi
    · cases hi
      exact Or.inl (List.mem_singleton.mp hc)
    · cases hi

/-- The parts before the last with the separator behind each. -/
theorem intercalate_concat (sep last : List Char) (parts : List (List Char)) :
    sep.intercalate (parts ++ [last]) = parts.flatMap (· ++ sep) ++ last := by
  induction parts with
  | nil => simp
  | cons p parts ih =>
    rw [List.flatMap_cons, List.append_assoc, ← ih]
    exact List.intercalate_cons_of_ne_nil (by simp)

/-- No part of a text that was cut has what it was cut at. -/
theorem eq_false_of_mem_splitOnP {p : Char → Bool} {part : List Char} (h : part ∈ text.splitOnP p) :
    ∀ c ∈ part, p c = false := by
  induction text generalizing part with
  | nil =>
    rw [List.splitOnP_nil, List.mem_singleton] at h
    subst h
    simp
  | cons c text ih =>
    rw [List.splitOnP_cons_eq_if_modifyHead] at h
    split at h
    · rcases List.mem_cons.mp h with rfl | hrest
      · simp
      · exact ih hrest
    · rename_i hc
      obtain ⟨first, rest, hparts⟩ := List.exists_cons_of_ne_nil (List.splitOnP_ne_nil p text)
      rw [hparts] at h ih
      rcases List.mem_cons.mp h with rfl | hrest
      · rw [List.forall_mem_cons]
        exact ⟨eq_false_of_ne_true hc, ih List.mem_cons_self⟩
      · exact ih (List.mem_cons_of_mem _ hrest)

/-! ## Words -/

/-- `split_whitespace`: the parts between white space that are not empty. -/
def words (text : List Char) : List (List Char) := (text.splitOnP isWhite).filter (· ≠ [])

theorem words_append (hc : isWhite c = true) (xs ys : List Char) :
    words (xs ++ c :: ys) = words xs ++ words ys := by
  rw [words, List.splitOnP_append_cons xs ys hc, List.filter_append]
  rfl

theorem words_single {word : List Char} (hne : word ≠ [])
    (hword : ∀ c ∈ word, isWhite c = false) : words word = [word] := by
  rw [words, List.splitOnP_eq_singleton hword, List.filter_singleton]
  simp [hne]

theorem mem_words {word : List Char} (h : word ∈ words text) :
    word ≠ [] ∧ ∀ c ∈ word, isWhite c = false := by
  rw [words, List.mem_filter, decide_eq_true_eq] at h
  exact ⟨h.2, eq_false_of_mem_splitOnP h.1⟩

/-- Texts with a blank between them. -/
theorem words_intercalate (texts : List (List Char)) :
    words ([' '].intercalate texts) = texts.flatMap words := by
  induction texts with
  | nil => rfl
  | cons t texts ih =>
    cases texts with
    | nil => simp
    | cons t' texts =>
      rw [List.intercalate_cons_cons, List.append_assoc, List.singleton_append,
        words_append (by decide), ih]
      rfl

/-! ## Lines -/

/-- A line without the carriage return before its newline. -/
def stripReturn (line : List Char) : List Char :=
  if line.getLast? = some '\r' then line.dropLast else line

/-- `str::lines`: what stands before each newline, and behind the last if there is something. -/
def lines (text : List Char) : List (List Char) :=
  match (text.splitOn '\n').reverse with
  | [] => []
  | [] :: terminated => terminated.reverse.map stripReturn
  | last :: terminated => terminated.reverse.map stripReturn ++ [last]

theorem splitOn_printed {ls : List (List Char)} (h : ∀ l ∈ ls, '\n' ∉ l) :
    (ls.flatMap (· ++ ['\n'])).splitOn '\n' = ls ++ [[]] := by
  have hprinted := intercalate_concat ['\n'] [] ls
  rw [List.append_nil] at hprinted
  rw [← hprinted]
  refine List.splitOn_intercalate '\n' ?_ (by simp)
  rw [List.forall_mem_append, List.forall_mem_singleton]
  exact ⟨h, List.not_mem_nil⟩

theorem lines_printed {ls : List (List Char)} (h : ∀ l ∈ ls, '\n' ∉ l) :
    lines (ls.flatMap (· ++ ['\n'])) = ls.map stripReturn := by
  rw [lines, splitOn_printed h, List.reverse_append]
  change ls.reverse.reverse.map stripReturn = _
  rw [List.reverse_reverse]

theorem words_stripReturn (line : List Char) : words (stripReturn line) = words line := by
  unfold stripReturn
  split
  · rename_i hlast
    obtain ⟨front, rfl⟩ := List.getLast?_eq_some_iff.mp hlast
    rw [List.dropLast_concat, words_append (by decide)]
    exact (List.append_nil _).symm
  · rfl

/-- Rows of fields, each a line with blanks between its fields. -/
def table (rows : List (List (List Char))) : List Char :=
  rows.flatMap fun row => [' '].intercalate row ++ ['\n']

def rowLine (row : List (List Char)) : List Char := stripReturn ([' '].intercalate row)

theorem lines_table {rows : List (List (List Char))}
    (h : ∀ row ∈ rows, ∀ field ∈ row, '\n' ∉ field) : lines (table rows) = rows.map rowLine := by
  have htable : table rows = (rows.map [' '].intercalate).flatMap (· ++ ['\n']) := by
    rw [List.flatMap_map]
    rfl
  rw [htable, lines_printed, List.map_map]
  · rfl
  · intro l hl hmem
    obtain ⟨row, hrow, rfl⟩ := List.mem_map.mp hl
    rcases mem_intercalate hmem with hsep | ⟨field, hfield, hc⟩
    · cases hsep
    · exact h row hrow field hfield hc

theorem words_rowLine (row : List (List Char)) : words (rowLine row) = row.flatMap words := by
  rw [rowLine, words_stripReturn, words_intercalate]

/-! ## Replacing -/

/-- The occurrences of a pattern that is not empty, replaced from left to right. The number counts
the characters that are still part of the last occurrence. -/
def replaceFrom (pattern replacement : List Char) : ℕ → List Char → List Char
  | _, [] => []
  | skip + 1, _ :: text => replaceFrom pattern replacement skip text
  | 0, c :: text =>
    if pattern <+: c :: text then
      replacement ++ replaceFrom pattern replacement (pattern.length - 1) text
    else c :: replaceFrom pattern replacement 0 text

/-- `str::replace`. -/
def replaceAll (pattern replacement text : List Char) : List Char :=
  replaceFrom pattern replacement 0 text

theorem replaceFrom_skip {skipped : List Char} :
    replaceFrom pattern replacement skipped.length (skipped ++ text) =
      replaceAll pattern replacement text := by
  induction skipped with
  | nil => rfl
  | cons c skipped ih => exact ih

/-- An occurrence at the front. -/
theorem replaceAll_append (hne : pattern ≠ []) :
    replaceAll pattern replacement (pattern ++ text) =
      replacement ++ replaceAll pattern replacement text := by
  cases pattern with
  | nil => exact absurd rfl hne
  | cons c pattern =>
    rw [replaceAll, List.cons_append, replaceFrom, if_pos (by simp)]
    change _ ++ replaceFrom _ _ pattern.length _ = _
    rw [replaceFrom_skip]

/-- No occurrence starts here. -/
theorem replaceAll_cons (h : ¬ pattern <+: c :: text) : replaceAll pattern replacement (c :: text) =
      c :: replaceAll pattern replacement text := by
  rw [replaceAll, replaceFrom, if_neg h]
  rfl

end Text

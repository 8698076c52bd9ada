import Kuasar.Data.Octal

/-!
# Guest.MountRecords — what `/proc/mounts` says of a mount point

After a mount the agent of the guest looks in `/proc/mounts` whether it is there with the type and
the options it was asked for. The kernel prints a mount as a line of fields with blanks between
them, in which blanks, tabs, newlines, backslashes and hashes are octal.

The second word of a line is unescaped before it is compared with the mount point, which is the
inverse of the kernel's escaping (`unescape_escape`), and the lines are searched from the last. The
type and the options are the next two words, as they are printed. So what is found is right where
the source is one word, and the type and the options are printed as they are.
-/

namespace Kuasar.MountRecords

open Text

/-- `MountRecord`. -/
structure MountRecord where
  fstype : List Char
  options : List (List Char)
  deriving DecidableEq, Repr

/-- `unescape_proc_mount_field`. -/
def unescapeProcMountField (value : List Char) : List Char :=
  let value := Text.replaceAll "\\040".toList [' '] value
  let value := Text.replaceAll "\\011".toList ['\t'] value
  let value := Text.replaceAll "\\012".toList ['\n'] value
  let value := Text.replaceAll "\\043".toList ['#'] value
  Text.replaceAll "\\134".toList ['\\'] value

/-- What a line says of the mount point. -/
def readRecord (mountPoint line : List Char) : Option MountRecord :=
  match Text.words line with
  | _ :: field :: fstype :: options :: _ =>
    if unescapeProcMountField field = mountPoint then some ⟨fstype, options.splitOn ','⟩ else none
  | _ => none

/-- `find_mount_record`. -/
def findMountRecord (mounts mountPoint : List Char) : Option MountRecord :=
  (Text.lines mounts).reverse.findSome? (readRecord mountPoint)

/-! ## What the kernel prints -/

/-- The characters that are octal. -/
def special : List Char := [' ', '\t', '\n', '#', '\\']

def escape (text : List Char) : List Char := Octal.escape special text

/-- The text is one word, with nothing to escape. -/
def Plain (text : List Char) : Prop :=
  text ≠ [] ∧ ∀ c ∈ text, Text.isWhite c = false ∧ c ∉ special

instance (text : List Char) : Decidable (Plain text) :=
  @instDecidableAnd _ _ _
    (List.decidableBAll (fun c => Text.isWhite c = false ∧ c ∉ special) text)

/-- A mount of the guest. All white space of its mount point is escaped; the other fields may have
any. -/
structure Mounted where
  source : List Char
  mountPoint : List Char
  fstype : List Char
  options : List (List Char)
  mountPoint_ne_nil : mountPoint ≠ []
  mountPoint_white : ∀ c ∈ mountPoint, Text.isWhite c = true → c ∈ special
  options_ne_nil : options ≠ []
  options_apart : ∀ o ∈ options, ',' ∉ o

namespace Mounted

def optionText (m : Mounted) : List Char := [','].intercalate m.options

/-- The line of a mount. -/
def fields (m : Mounted) : List (List Char) :=
  [escape m.source, escape m.mountPoint, escape m.fstype, escape m.optionText, ['0'], ['0']]

/-- What is to be returned of a mount. -/
def record (m : Mounted) : MountRecord := ⟨m.fstype, m.options⟩

/-- The words of the line. -/
def shown (m : Mounted) : List (List Char) := m.fields.flatMap Text.words

/-- The line has enough words, and the second stands for the mount point. -/
def ShownAt (mountPoint : List Char) (m : Mounted) : Prop :=
  4 ≤ m.shown.length ∧ unescapeProcMountField (m.shown.getD 1 []) = mountPoint

instance (mountPoint : List Char) : DecidablePred (ShownAt mountPoint) := fun m =>
  inferInstanceAs (Decidable (4 ≤ m.shown.length ∧
    unescapeProcMountField (m.shown.getD 1 []) = mountPoint))

/-- The next two words are the type and the options of a mount. -/
def Shows (m other : Mounted) : Prop :=
  m.shown.getD 2 [] = other.fstype ∧ m.shown.getD 3 [] = other.optionText

def OneSource (m : Mounted) : Prop := (Text.words (escape m.source)).length = 1

instance (m : Mounted) : Decidable m.OneSource :=
  inferInstanceAs (Decidable ((Text.words (escape m.source)).length = 1))

end Mounted

/-- `/proc/mounts`. -/
def printed (mounts : List Mounted) : List Char := Text.table (mounts.map Mounted.fields)

def lastOn (mounts : List Mounted) (mountPoint : List Char) : Option Mounted :=
  mounts.reverse.find? fun m => m.mountPoint = mountPoint

/-- The last line that shows the mount point. -/
def lastShown (mounts : List Mounted) (mountPoint : List Char) : Option Mounted :=
  mounts.reverse.find? fun m => m.ShownAt mountPoint

/-- The last line that shows the mount point shows the type and the options of the last mount on it,
and there is none if there is no mount. -/
def LinesAgree (mounts : List Mounted) (mountPoint : List Char) : Prop :=
  (∀ m ∈ lastOn mounts mountPoint, ∃ x, lastShown mounts mountPoint = some x ∧ x.Shows m) ∧
    (lastOn mounts mountPoint = none → lastShown mounts mountPoint = none)

/-! ## Unescaping -/

theorem unescape_escape (text : List Char) : unescapeProcMountField (escape text) = text := by
  unfold unescapeProcMountField escape special
  dsimp only
  rw [show "\\040".toList = Octal.code ' ' by decide,
    show "\\011".toList = Octal.code '\t' by decide,
    show "\\012".toList = Octal.code '\n' by decide,
    show "\\043".toList = Octal.code '#' by decide,
    show "\\134".toList = Octal.code '\\' by decide]
  -- one character after the other leaves the set, the backslash last
  rw [Octal.replaceAll_escape (by simp) (by decide) (by decide),
    Octal.replaceAll_escape (by simp) (by decide) (by decide),
    Octal.replaceAll_escape (by simp) (by decide) (by decide),
    Octal.replaceAll_escape (by simp) (by decide) (by decide),
    Octal.replaceAll_escape (by simp) (by decide) (by decide)]
  apply Octal.escape_of_none
  intro c _
  exact List.not_mem_nil

/-! ## Reading the lines -/

variable {text : List Char} {m : Mounted}

/-- A text without other white space is printed without any. -/
theorem isWhite_escape (h : ∀ c ∈ text, isWhite c = true → c ∈ special) :
    ∀ c ∈ escape text, isWhite c = false := by
  have hdigits : ∀ c ∈ Octal.digits, isWhite c = false :=
    List.forall_iff_forall_mem.mp (by decide)
  intro c hc
  rcases Octal.mem_escape hc with ⟨hmem, hspecial⟩ | hdigit
  · by_contra hwhite
    exact hspecial (h c hmem (eq_true_of_ne_false hwhite))
  · exact hdigits c hdigit

theorem newline_notMem_fields {field : List Char} (h : field ∈ m.fields) : '\n' ∉ field := by
  have hescape : ∀ text, '\n' ∉ escape text := fun text =>
    Octal.notMem_escape (by decide) (by decide)
  simp only [Mounted.fields, List.mem_cons, List.not_mem_nil, or_false] at h
  rcases h with rfl | rfl | rfl | rfl | rfl | rfl
  · exact hescape m.source
  · exact hescape m.mountPoint
  · exact hescape m.fstype
  · exact hescape m.optionText
  · decide
  · decide

theorem lines_printed (mounts : List Mounted) :
    lines (printed mounts) = mounts.map fun m => rowLine m.fields := by
  rw [printed, lines_table, List.map_map]
  · rfl
  · intro row hrow field hfield
    obtain ⟨m, -, rfl⟩ := List.mem_map.mp hrow
    exact newline_notMem_fields hfield

theorem readRecord_rowLine (m : Mounted) (mountPoint : List Char) :
    readRecord mountPoint (rowLine m.fields) = if m.ShownAt mountPoint then
      some ⟨m.shown.getD 2 [], (m.shown.getD 3 []).splitOn ','⟩ else none := by
  have hwords : ∀ ws : List (List Char), (match ws with
      | _ :: field :: fstype :: options :: _ =>
        if unescapeProcMountField field = mountPoint then
          some (⟨fstype, options.splitOn ','⟩ : MountRecord) else none
      | _ => none) = if 4 ≤ ws.length ∧ unescapeProcMountField (ws.getD 1 []) = mountPoint then
        some ⟨ws.getD 2 [], (ws.getD 3 []).splitOn ','⟩ else none := by
    rintro (_ | ⟨source, _ | ⟨field, _ | ⟨fstype, _ | ⟨options, rest⟩⟩⟩⟩)
    · rfl
    · rfl
    · rfl
    · rfl
    · simp
  unfold readRecord
  rw [words_rowLine]
  exact hwords m.shown

/-- What is found: the words of the last line that shows the mount point. -/
theorem findMountRecord_printed (mounts : List Mounted) (mountPoint : List Char) :
    findMountRecord (printed mounts) mountPoint = (lastShown mounts mountPoint).map fun m =>
      ⟨m.shown.getD 2 [], (m.shown.getD 3 []).splitOn ','⟩ := by
  unfold findMountRecord lastShown
  rw [lines_printed, ← List.map_reverse, List.findSome?_map]
  induction mounts.reverse with
  | nil => rfl
  | cons m ms ih =>
    rw [List.findSome?_cons, List.find?_cons, Function.comp, readRecord_rowLine]
    by_cases hm : m.ShownAt mountPoint
    · simp [hm]
    · simpa [hm] using ih

theorem splitOn_eq_options_iff : text.splitOn ',' = m.options ↔ text = m.optionText := by
  constructor
  · intro h
    rw [Mounted.optionText, ← h, List.intercalate_splitOn]
  · rintro rfl
    exact List.splitOn_intercalate ',' m.options_apart m.options_ne_nil

theorem find_eq_iff_linesAgree (mounts : List Mounted) (mountPoint : List Char) :
    findMountRecord (printed mounts) mountPoint = (lastOn mounts mountPoint).map Mounted.record ↔
      LinesAgree mounts mountPoint := by
  rw [findMountRecord_printed, LinesAgree]
  cases lastOn mounts mountPoint with
  | none => simp
  | some m =>
    simp only [Option.map_some, Option.map_eq_some_iff, Mounted.record, MountRecord.mk.injEq,
      splitOn_eq_options_iff, Option.mem_some, forall_eq', reduceCtorEq, false_imp_iff, and_true]
    rfl

/-! ## Sources that are one word -/

theorem words_escape_of_plain (h : Plain text) : words (escape text) = [text] := by
  have hescape : escape text = text := Octal.escape_eq_self_iff.mpr fun c hc => (h.2 c hc).2
  rw [hescape, words_single h.1 fun c hc => (h.2 c hc).1]

/-- The next of some words is a text, which is printed before them, if it is plain. -/
theorem getD_words_iff {rest : List (List Char)} (hne : rest ≠ [])
    (hrest : ∀ w ∈ rest, w ≠ [] ∧ ∀ c ∈ w, isWhite c = false) :
    (words (escape text) ++ rest).getD 0 [] = text ↔ Plain text := by
  constructor
  · intro h
    have hmem : text ∈ words (escape text) ++ rest := by
      cases hwords : words (escape text) ++ rest with
      | nil => exact absurd (List.append_eq_nil_iff.mp hwords).2 hne
      | cons w ws =>
        rw [hwords] at h
        exact h ▸ List.mem_cons_self
    have hword : text ≠ [] ∧ ∀ c ∈ text, isWhite c = false := by
      rcases List.mem_append.mp hmem with hmem | hmem
      · exact mem_words hmem
      · exact hrest text hmem
    have hwhite : ∀ c ∈ escape text, isWhite c = false := by
      apply isWhite_escape
      intro c hc hc'
      rw [hword.2 c hc] at hc'
      cases hc'
    have hone : words (escape text) = [escape text] :=
      words_single (Octal.escape_ne_nil hword.1) hwhite
    rw [hone] at h
    refine ⟨hword.1, fun c hc => ⟨hword.2 c hc, ?_⟩⟩
    exact Octal.escape_eq_self_iff.mp h c hc
  · intro h
    rw [words_escape_of_plain h]
    rfl

theorem shown_of_oneSource (h : m.OneSource) :
    ∃ source, m.shown = source :: escape m.mountPoint ::
      (words (escape m.fstype) ++ (words (escape m.optionText) ++ [['0'], ['0']])) := by
  obtain ⟨source, hsource⟩ := List.length_eq_one_iff.mp h
  have hpoint : words (escape m.mountPoint) = [escape m.mountPoint] :=
    words_single (Octal.escape_ne_nil m.mountPoint_ne_nil) (isWhite_escape m.mountPoint_white)
  have hzero : words ['0'] = [['0']] := by decide
  refine ⟨source, ?_⟩
  simp [Mounted.shown, Mounted.fields, hsource, hpoint, hzero]

theorem shownAt_iff (h : m.OneSource) (mountPoint : List Char) :
    m.ShownAt mountPoint ↔ m.mountPoint = mountPoint := by
  obtain ⟨source, hshown⟩ := shown_of_oneSource h
  have hlen : 4 ≤ m.shown.length := by
    rw [hshown]
    simp only [List.length_cons, List.length_append, List.length_nil]
    omega
  rw [Mounted.ShownAt, and_iff_right hlen, hshown]
  change unescapeProcMountField (escape m.mountPoint) = mountPoint ↔ _
  rw [unescape_escape]

theorem shows_self_iff (h : m.OneSource) : m.Shows m ↔ Plain m.fstype ∧ Plain m.optionText := by
  obtain ⟨source, hshown⟩ := shown_of_oneSource h
  have hzeros : ∀ w ∈ [['0'], ['0']], w ≠ [] ∧ ∀ c ∈ w, isWhite c = false := by
    simp [isWhite]
  have hoptions : ∀ w ∈ words (escape m.optionText) ++ [['0'], ['0']],
      w ≠ [] ∧ ∀ c ∈ w, isWhite c = false := by
    intro w hw
    rcases List.mem_append.mp hw with hw | hw
    · exact mem_words hw
    · exact hzeros w hw
  have htype : m.shown.getD 2 [] = m.fstype ↔ Plain m.fstype := by
    rw [hshown]
    exact getD_words_iff (by simp) hoptions
  rw [Mounted.Shows, htype]
  apply and_congr_right
  intro hplain
  have hword : words (escape m.fstype) = [m.fstype] := by
    have hescape : escape m.fstype = m.fstype :=
      Octal.escape_eq_self_iff.mpr fun c hc => (hplain.2 c hc).2
    rw [hescape, words_single hplain.1 fun c hc => (hplain.2 c hc).1]
  rw [hshown, hword]
  exact getD_words_iff (by simp) hzeros

theorem linesAgree_iff_plain {mounts : List Mounted} {mountPoint : List Char}
    (h : ∀ m ∈ mounts, m.OneSource) : LinesAgree mounts mountPoint ↔
      ∀ m ∈ lastOn mounts mountPoint, Plain m.fstype ∧ Plain m.optionText := by
  have hlast : lastShown mounts mountPoint = lastOn mounts mountPoint := by
    unfold lastShown lastOn
    rw [← List.head?_filter, ← List.head?_filter]
    congr 1
    apply List.filter_congr
    intro m hm
    rw [decide_eq_decide]
    exact shownAt_iff (h m (List.mem_reverse.mp hm)) mountPoint
  rw [LinesAgree, hlast]
  cases hon : lastOn mounts mountPoint with
  | none => simp
  | some m =>
    have hm : m ∈ mounts := List.mem_reverse.mp (List.mem_of_find?_eq_some hon)
    simp [shows_self_iff (h m hm)]

/-- **Mount records.** Unescaping is the inverse of the kernel's escaping. What is found for a mount
point is the type and the options of the last mount on it, or nothing if there is none, exactly if
the lines agree; where every source is one word, exactly if the type and the options of that mount
are plain. -/
theorem find_mount_record_iff (mounts : List Mounted) (mountPoint : List Char) :
    (∀ text, unescapeProcMountField (escape text) = text) ∧
      (findMountRecord (printed mounts) mountPoint =
          (lastOn mounts mountPoint).map Mounted.record ↔ LinesAgree mounts mountPoint) ∧
      ((∀ m ∈ mounts, m.OneSource) → (LinesAgree mounts mountPoint ↔
        ∀ m ∈ lastOn mounts mountPoint, Plain m.fstype ∧ Plain m.optionText)) :=
  ⟨unescape_escape, find_eq_iff_linesAgree mounts mountPoint, linesAgree_iff_plain⟩

/-- The last of two mounts on a mount point with a blank in it. -/
theorem find_mount_record_stacked :
    let ext4 : Mounted := ⟨"/dev/sda".toList, "/mnt/a b".toList, "ext4".toList, ["rw".toList],
      by decide, by simp [isWhite, special], by decide, by decide⟩
    let tmpfs : Mounted := ⟨"tmpfs".toList, "/mnt/a b".toList, "tmpfs".toList,
      ["ro".toList, "size=1k".toList], by decide, by simp [isWhite, special],
      by decide, by decide⟩
    findMountRecord (printed [ext4, tmpfs]) "/mnt/a b".toList =
      some ⟨"tmpfs".toList, ["ro".toList, "size=1k".toList]⟩ := by
  intro ext4 tmpfs
  obtain ⟨-, hfind, hplain⟩ := find_mount_record_iff [ext4, tmpfs] "/mnt/a b".toList
  exact hfind.mpr ((hplain (by decide)).mpr (by decide))

/-- A type with a blank in it is found as it is printed. -/
theorem find_mount_record_escaped :
    let fuse : Mounted := ⟨"src".toList, "/mnt".toList, "fuse.my fs".toList, ["rw".toList],
      by decide, by simp [isWhite, special], by decide, by decide⟩
    findMountRecord (printed [fuse]) "/mnt".toList =
        some ⟨"fuse.my\\040fs".toList, ["rw".toList]⟩ ∧
      (lastOn [fuse] "/mnt".toList).map Mounted.record =
        some ⟨"fuse.my fs".toList, ["rw".toList]⟩ := by
  decide

end Kuasar.MountRecords

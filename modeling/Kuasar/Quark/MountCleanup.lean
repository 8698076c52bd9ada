import Kuasar.Guest.MountRecords

/-!
# Quark.MountCleanup — the mounts that are unmounted with a directory

`cleanup_mounts` goes through `/proc/mounts` and unmounts the second word of each line that starts
with the text of the directory. The kernel prints a mount point with some of its characters as octal
codes, and a text that starts with another need not be a path below it.

So each mount at or below the directory is unmounted, and no other, if and only if these are printed
as they are, with the text of the directory in front, and no other line has that text in front of
its second word (`cleanup_exact_iff`). The bundle of a container whose id extends that of another
has it: where nothing is escaped, this is the only way to go wrong (`cleanup_containers_iff`).
-/

namespace Kuasar.MountCleanup

open MountRecords (escape Plain)

/-- A mount, as `/proc/mounts` has it. -/
structure ProcMount where
  source : List Char
  mountPoint : List Char
  fstype : List Char
  options : List Char

def ProcMount.fields (m : ProcMount) : List (List Char) :=
  [escape m.source, escape m.mountPoint, escape m.fstype, escape m.options, ['0'], ['0']]

/-- The words of the line. -/
def ProcMount.words (m : ProcMount) : List (List Char) := m.fields.flatMap Text.words

/-- `/proc/mounts`. -/
def printed (table : List ProcMount) : List Char := Text.table (table.map ProcMount.fields)

/-- What `cleanup_mounts` does for one line: it takes the second word, which there must be, and
unmounts it or does not. -/
def cleanupLine (baseDir line : List Char) : Option (Option (List Char)) :=
  (Text.words line)[1]?.map fun path => if baseDir <+: path then some path else none

/-- `cleanup_mounts`: what is unmounted for each line. A failure to unmount is only logged. -/
def cleanupMounts (mounts baseDir : List Char) : Option (List (Option (List Char))) :=
  (Text.lines mounts).mapM (cleanupLine baseDir)

/-- `get_container_bundle`. -/
def getContainerBundle (baseDir id : List Char) : List Char :=
  baseDir ++ "/sandbox/".toList ++ id

def components (path : List Char) : List (List Char) := (path.splitOn '/').filter (· ≠ [])

/-- The mount point is the directory or lies below it. -/
def Below (baseDir : List Char) (m : ProcMount) : Prop :=
  baseDir.head? = some '/' ∧ components baseDir <+: components m.mountPoint

instance (baseDir : List Char) (m : ProcMount) : Decidable (Below baseDir m) :=
  inferInstanceAs (Decidable (_ ∧ _))

/-- The second word of the line. -/
def ProcMount.path (m : ProcMount) : List Char := m.words.getD 1 []

theorem ProcMount.newline_notMem (m : ProcMount) : ∀ field ∈ m.fields, '\n' ∉ field := by
  have hescape : ∀ text, '\n' ∉ escape text := fun text =>
    Octal.notMem_escape (by decide) (by decide)
  simp [ProcMount.fields, hescape]

theorem lines_printed (table : List ProcMount) :
    Text.lines (printed table) = table.map fun m => Text.rowLine m.fields := by
  rw [printed, Text.lines_table, List.map_map]
  · rfl
  · intro row hrow
    obtain ⟨m, -, rfl⟩ := List.mem_map.mp hrow
    exact m.newline_notMem

/-- A line has two zeros at its end, so there is a second word. -/
theorem ProcMount.getElem?_words (m : ProcMount) : m.words[1]? = some m.path := by
  have hzeros : 2 ≤ m.words.length := by
    have hlast : m.words = (m.fields.take 4).flatMap Text.words ++ [['0'], ['0']] := by
      have hzero : Text.words ['0'] = [['0']] := by decide
      simp [words, fields, hzero]
    rw [hlast, List.length_append]
    exact Nat.le_add_left ..
  rw [path, List.getD_eq_getElem?_getD, List.getElem?_eq_getElem (by omega)]
  rfl

theorem cleanupLine_rowLine (baseDir : List Char) (m : ProcMount) :
    cleanupLine baseDir (Text.rowLine m.fields) =
      some (if baseDir <+: m.path then some m.path else none) := by
  unfold cleanupLine
  rw [Text.words_rowLine]
  show m.words[1]?.map _ = _
  rw [m.getElem?_words]
  rfl

/-- The cleanup does not fail, whatever is mounted. -/
theorem cleanupMounts_printed (table : List ProcMount) (baseDir : List Char) :
    cleanupMounts (printed table) baseDir =
      some (table.map fun m => if baseDir <+: m.path then some m.path else none) := by
  unfold cleanupMounts
  rw [lines_printed]
  induction table with
  | nil => rfl
  | cons m table ih =>
    rw [List.map_cons, List.mapM_cons, cleanupLine_rowLine, ih]
    rfl

/-- For every mount table and every directory: what is unmounted for each mount is its mount point
if that is the directory or lies below it, and nothing otherwise, if and only if the mounts at or
below it are printed as they are behind its text, and no other line has its text there. -/
theorem cleanup_exact_iff (table : List ProcMount) (baseDir : List Char) :
    cleanupMounts (printed table) baseDir =
        some (table.map fun m => if Below baseDir m then some m.mountPoint else none) ↔
      ∀ m ∈ table, (Below baseDir m → m.path = m.mountPoint ∧ baseDir <+: m.mountPoint) ∧
        (baseDir <+: m.path → Below baseDir m) := by
  rw [cleanupMounts_printed, Option.some.injEq, List.map_inj_left]
  refine forall₂_congr fun m _ => ?_
  by_cases hbelow : Below baseDir m
  · rw [if_pos hbelow]
    constructor
    · intro h
      split at h
      · rename_i hpath
        have heq := Option.some.inj h
        exact ⟨fun _ => ⟨heq, heq ▸ hpath⟩, fun _ => hbelow⟩
      · cases h
    · rintro ⟨h, -⟩
      obtain ⟨heq, htext⟩ := h hbelow
      rw [heq, if_pos htext]
  · rw [if_neg hbelow]
    constructor
    · intro h
      split at h
      · cases h
      · rename_i hpath
        exact ⟨fun h => absurd h hbelow, fun h => absurd h hpath⟩
    · rintro ⟨-, h⟩
      exact if_neg fun hpath => hbelow (h hpath)

/-! ## Bundles -/

/-- A mount in the bundle of a container, with nothing to escape. -/
structure InBundle (baseDir id : List Char) (m : ProcMount) : Prop where
  source : Plain m.source
  mountPoint : Plain m.mountPoint
  place : ∃ rest, m.mountPoint = getContainerBundle baseDir id ++ rest ∧
    (rest = [] ∨ rest.head? = some '/')

variable {baseDir id id' : List Char} {m : ProcMount}

theorem InBundle.path_eq (h : InBundle baseDir id m) : m.path = m.mountPoint := by
  rw [ProcMount.path, ProcMount.words, ProcMount.fields, List.flatMap_cons, List.flatMap_cons,
    MountRecords.words_escape_of_plain h.source, MountRecords.words_escape_of_plain h.mountPoint]
  rfl

theorem InBundle.bundle_prefix_iff (h : InBundle baseDir id' m) (hid : '/' ∉ id) :
    getContainerBundle baseDir id <+: m.mountPoint ↔ id <+: id' := by
  obtain ⟨rest, hpoint, hrest⟩ := h.place
  rw [hpoint, getContainerBundle, getContainerBundle, List.append_assoc _ id' rest,
    List.prefix_append_right_inj]
  constructor
  · intro hpre
    rcases List.prefix_or_prefix_of_prefix hpre ( List.prefix_append id' rest) with h | ⟨more, rfl⟩
    · exact h
    · -- what follows in the longer id would begin with a slash
      rw [List.prefix_append_right_inj] at hpre
      cases more with
      | nil => simp
      | cons c more =>
        obtain ⟨tail, rfl⟩ := hpre
        rcases hrest with hnil | hslash
        · cases hnil
        · cases hslash
          exact absurd (List.mem_append_right id' List.mem_cons_self) hid
  · intro hpre
    exact hpre.trans ( List.prefix_append id' rest)

/-- Of containers with mounts in their bundles and nothing to escape: with a container its own
mounts are unmounted, and no other, if and only if the id of no other of them extends its own. -/
theorem cleanup_containers_iff (table : List ProcMount) (owner : ProcMount → List Char)
    (hid : '/' ∉ id) (h : ∀ m ∈ table, InBundle baseDir (owner m) m) :
    cleanupMounts (printed table) (getContainerBundle baseDir id) =
        some (table.map fun m => if owner m = id then some m.mountPoint else none) ↔
      ∀ m ∈ table, id <+: owner m → owner m = id := by
  rw [cleanupMounts_printed, Option.some.injEq, List.map_inj_left]
  refine forall₂_congr fun m hm => ?_
  rw [(h m hm).path_eq]
  simp only [(h m hm).bundle_prefix_iff hid]
  by_cases howner : owner m = id
  · simp [howner]
  · simp [howner]

/-- The container `c1` is removed, and a mount of `c10` goes with it. -/
theorem extended_id_unmounted :
    let bundle := getContainerBundle "/run/q".toList
    let rootfs : ProcMount :=
      ⟨['x'], bundle "c10".toList ++ "/rootfs".toList, "xfs".toList, "rw".toList⟩
    cleanupMounts (printed [rootfs]) (bundle "c1".toList) = some [some rootfs.mountPoint] ∧
      ¬ Below (bundle "c1".toList) rootfs := by
  decide +kernel

end Kuasar.MountCleanup

import Kuasar.Data.Text
import Mathlib.Data.Set.Basic

/-!
# Data.Paths — directories as lists of names

A path is the list of names from the root. A text is joined to a path as a file system
resolves it where there are no links: names between slashes, of which the empty one and a dot
stay, two dots go up, and a text that begins with a slash starts at the root.

A plain text is a single name and leads to the entry of that name (`join_plain`). A text that
descends leads down by its names (`join_of_descends`).
-/

namespace Paths

/-- The names from the root. -/
abbrev Path := List String

def names (text : String) : List String := (text.toList.splitOn '/').map String.ofList

/-- Where one name leads to. -/
def enter (dir : Path) (name : String) : Path :=
  if name = "" ∨ name = "." then dir
  else if name = ".." then dir.dropLast
  else dir ++ [name]

/-- Where a text leads to from a directory. -/
def join (dir : Path) (text : String) : Path :=
  (names text).foldl enter (if text.toList.head? = some '/' then [] else dir)

/-- The text is a single name. -/
def Plain (text : String) : Prop := text ≠ "" ∧ text ≠ "." ∧ text ≠ ".." ∧ '/' ∉ text.toList

/-- The path is below the directory. -/
def Inside (dir path : Path) : Prop := dir <+: path ∧ path ≠ dir

def below (dir : Path) : Set Path := {path | dir <+: path}

variable {dir : Path} {text name : String}

theorem names_of_no_slash (h : '/' ∉ text.toList) : names text = [text] := by
  have hsplit : text.toList.splitOn '/' = [text.toList] := by
    apply List.splitOnP_eq_singleton
    intro c hc
    by_contra hslash
    rw [Bool.not_eq_false, beq_iff_eq] at hslash
    exact h (hslash ▸ hc)
  rw [names, hsplit, List.map_singleton, String.ofList_toList]

theorem no_slash_of_mem_names (h : name ∈ names text) : '/' ∉ name.toList := by
  obtain ⟨part, hpart, rfl⟩ := List.mem_map.mp h
  rw [String.toList_ofList]
  intro hslash
  cases Text.eq_false_of_mem_splitOnP hpart '/' hslash

theorem join_of_no_slash (h : '/' ∉ text.toList) (dir : Path) : join dir text = enter dir text := by
  have hrelative : text.toList.head? ≠ some '/' := fun hhead => h (List.mem_of_head? hhead)
  rw [join, if_neg hrelative, names_of_no_slash h]
  rfl

theorem join_plain (h : Plain text) (dir : Path) : join dir text = dir ++ [text] := by
  obtain ⟨hempty, hdot, hdots, hslash⟩ := h
  rw [join_of_no_slash hslash, enter, if_neg (by simp [hempty, hdot]), if_neg hdots]

/-! ## Texts of names -/

/-- The text that has the names, with slashes between them. -/
def unite (parts : List String) : String :=
  String.ofList (['/'].intercalate (parts.map String.toList))

theorem unite_names (text : String) : unite (names text) = text := by
  rw [unite, names, List.map_map]
  have hid : (String.toList ∘ String.ofList) = id := by
    funext chars
    exact String.toList_ofList
  rw [hid, List.map_id, List.intercalate_splitOn, String.ofList_toList]

theorem names_unite {parts : List String} (hne : parts ≠ [])
    (hslash : ∀ part ∈ parts, '/' ∉ part.toList) : names (unite parts) = parts := by
  have hparts : ∀ chars ∈ parts.map String.toList, '/' ∉ chars := by
    intro chars hchars
    obtain ⟨part, hpart, rfl⟩ := List.mem_map.mp hchars
    exact hslash part hpart
  rw [names, unite, String.toList_ofList, List.splitOn_intercalate '/' hparts (by simpa using hne),
    List.map_map]
  have hid : (String.ofList ∘ String.toList) = id := by
    funext part
    exact String.ofList_toList
  rw [hid, List.map_id]

theorem unite_concat {parts : List String} (hne : parts ≠ []) (part : String) :
    unite (parts ++ [part]) = unite parts ++ "/" ++ part := by
  obtain ⟨parts, last, rfl⟩ := List.eq_nil_or_concat' parts |>.resolve_left hne
  apply String.toList_injective
  rw [unite, unite, List.map_append, List.map_append, List.map_singleton, List.map_singleton,
    Text.intercalate_concat, Text.intercalate_concat]
  simp

/-! ## Texts that lead down -/

/-- The text does not start at the root and does not go up. -/
def Descends (text : String) : Prop := text.toList.head? ≠ some '/' ∧ ".." ∉ names text

/-- The names that do not stay. -/
def steps (ns : List String) : List String := ns.filter fun n => n ≠ "" ∧ n ≠ "."

theorem foldl_enter_steps {ns : List String} (h : ".." ∉ ns) :
    ns.foldl enter dir = dir ++ steps ns := by
  induction ns generalizing dir with
  | nil => simp [steps]
  | cons n ns ih =>
    obtain ⟨hdots, hns⟩ := not_or.mp (mt List.mem_cons.mpr h)
    rw [List.foldl_cons, ih hns, enter]
    by_cases hstays : n = "" ∨ n = "."
    · rw [if_pos hstays, steps, steps, List.filter_cons_of_neg]
      simpa [← not_or] using hstays
    · rw [if_neg hstays, if_neg (Ne.symm hdots), steps, steps, List.filter_cons_of_pos,
        List.append_assoc, List.singleton_append]
      simpa [← not_or] using hstays

theorem join_of_descends (h : Descends text) (dir : Path) :
    join dir text = dir ++ steps (names text) := by
  rw [join, if_neg h.1, foldl_enter_steps h.2]

/-- Names that are no dots lead down. -/
theorem foldl_enter {others : List String}
    (h : ∀ n ∈ others, n ≠ "" ∧ n ≠ "." ∧ n ≠ "..") : others.foldl enter dir = dir ++ others := by
  rw [foldl_enter_steps fun hdots => (h ".." hdots).2.2 rfl, steps, List.filter_eq_self.mpr]
  intro n hn
  exact decide_eq_true ⟨(h n hn).1, (h n hn).2.1⟩

theorem names_ne_nil (text : String) : names text ≠ [] := by
  rw [names, Ne, List.map_eq_nil_iff]
  exact List.splitOn_ne_nil _ _

/-- A text that begins with a slash has an empty name in front. -/
theorem names_of_slash (h : text.toList.head? = some '/') :
    ∃ rest, rest ≠ [] ∧ names text = "" :: rest := by
  obtain ⟨chars, hchars⟩ := List.head?_eq_some_iff.mp h
  refine ⟨(chars.splitOn '/').map String.ofList, ?_, ?_⟩
  · rw [Ne, List.map_eq_nil_iff]
    exact List.splitOn_ne_nil _ _
  · rw [names, hchars, List.splitOn, List.splitOnP_cons_eq_if_modifyHead]
    rfl

theorem slash_of_names {n : String} {rest : List String} (h : names text = "" :: n :: rest) :
    text.toList.head? = some '/' := by
  rw [← unite_names text, h, unite, String.toList_ofList, List.map_cons, List.map_cons,
    List.intercalate_cons_cons]
  rfl

/-! ## Directories apart -/

/-- Directories neither of which contains the other have nothing in common. -/
theorem notMem_below {dir' : Path} (h : ¬ dir <+: dir') (h' : ¬ dir' <+: dir) :
    ∀ path ∈ below dir, path ∉ below dir' := by
  intro path hpath hpath'
  rcases List.prefix_or_prefix_of_prefix hpath hpath' with hpre | hpre
  · exact h hpre
  · exact h' hpre

/-- What is below an inner directory is inside the outer one. -/
theorem Inside.of_below {inner path : Path} (h : Inside dir inner) (hpath : path ∈ below inner) :
    Inside dir path := by
  have hpre : inner <+: path := hpath
  refine ⟨h.1.trans hpre, ?_⟩
  rintro rfl
  exact h.2 (hpre.eq_of_length (le_antisymm hpre.length_le h.1.length_le))

/-- An entry is inside another directory exactly if the one that it is in is, or is that one. -/
theorem inside_concat_iff {outer : Path} : Inside outer (dir ++ [name]) ↔ outer <+: dir := by
  rw [Inside, List.prefix_concat_iff]
  constructor
  · rintro ⟨heq | hpre, hne⟩
    · exact absurd heq.symm hne
    · exact hpre
  · intro hpre
    refine ⟨Or.inr hpre, ?_⟩
    rintro rfl
    have hlen := hpre.length_le
    rw [List.length_append, List.length_singleton] at hlen
    omega

end Paths

import Kuasar.Data.Fallible
import Kuasar.Data.Paths

/-!
# Sandbox.GuestPaths — paths that are sent to the guest

Paths of the guest are checked before they stand in a command: component by component, with the
characters that a component may have, and no component that is empty or of dots. A relative path or
a single component is joined to a base only if both pass.

A text passes exactly if it is made of safe names with single slashes between them, and perhaps one
in front (`validateGuestPath_iff`). Joining appends the names, so that what comes out passes again
and is below the base (`join_guest_below`).
-/

namespace Kuasar.GuestPaths

open Fallible

inductive GuestPathError where
  /-- guest path is empty -/
  | empty
  /-- guest path contains empty component -/
  | emptyComponent (path : String)
  /-- guest path contains unsafe component -/
  | unsafeComponent (path : String)
  /-- guest path component contains unsafe characters -/
  | unsafeCharacters (component : String)
  /-- guest path component contains path separator -/
  | separator (component : String)
  /-- guest relative path is not valid UTF-8 -/
  | notUtf8
  /-- guest relative path contains unsafe component -/
  | unsafeRelative (path : String)
  deriving DecidableEq, Repr

/-! ## Components -/

/-- `std::path::Component`. -/
inductive Component where
  | rootDir
  | curDir
  | parentDir
  | normal (name : String)
  deriving DecidableEq, Repr

/-- The text begins with a slash. -/
def Absolute (path : String) : Prop := path.toList.head? = some '/'

instance (path : String) : Decidable (Absolute path) :=
  inferInstanceAs (Decidable (path.toList.head? = some '/'))

/-- What a name is as a component; empty names and dots are none. -/
def component? (name : String) : Option Component :=
  if name = "" ∨ name = "." then none
  else if name = ".." then some .parentDir
  else some (.normal name)

/-- `Path::components`. A dot counts only at the front of a relative path. -/
def components (path : String) : List Component :=
  let rest := (Paths.names path).filterMap component?
  if Absolute path then .rootDir :: rest
  else if (Paths.names path).head? = some "." then .curDir :: rest
  else rest

/-! ## The checks -/

/-- A character that a component may have. -/
def isSafeChar (c : Char) : Bool := c.isAlphanum || "_.:-".toList.contains c

/-- `validate_guest_component`. -/
def validateGuestComponent (component : String) : Except GuestPathError Unit :=
  if component = "" ∨ component = "." ∨ component = ".." then .error (.unsafeComponent component)
  else if component.toList.all isSafeChar then .ok ()
  else .error (.unsafeCharacters component)

def validateRawComponent (path : String) (allowAbsolute : Bool) (entry : String × ℕ) :
    Except GuestPathError Unit :=
  if entry.1 = "" then
    if allowAbsolute ∧ entry.2 = 0 ∧ Absolute path then .ok () else .error (.emptyComponent path)
  else if entry.1 = "." ∨ entry.1 = ".." then .error (.unsafeComponent path)
  else .ok ()

/-- `validate_raw_components`. -/
def validateRawComponents (path : String) (allowAbsolute : Bool) : Except GuestPathError Unit :=
  (Paths.names path).zipIdx.forM (validateRawComponent path allowAbsolute)

def validateComponent (path : String) : Component → Except GuestPathError Unit
  | .rootDir => .ok ()
  | .normal value => validateGuestComponent value
  | _ => .error (.unsafeComponent path)

/-- `validate_guest_path`. -/
def validateGuestPath (path : String) : Except GuestPathError Unit :=
  if path = "" then .error .empty
  else do
    validateRawComponents path true
    (components path).forM (validateComponent path)

abbrev HostPath := Option String

def validateRelativeComponent (path : String) : Component → Except GuestPathError Unit
  | .normal value => validateGuestComponent value
  | _ => .error (.unsafeRelative path)

/-- `validate_relative_guest_path`. -/
def validateRelativeGuestPath (path : HostPath) : Except GuestPathError Unit :=
  match path with
  | none => .error .notUtf8
  | some text => do
    validateRawComponents text false
    (components text).forM (validateRelativeComponent text)

/-- `trim_end_matches('/')`. -/
def trimEndSlashes (text : String) : String :=
  String.ofList (text.toList.rdropWhile (· = '/'))

/-- A component is pushed behind a slash, if it is a name. -/
def pushComponent (path : String) : Component → String
  | .normal value => path ++ "/" ++ value
  | _ => path

/-- `join_guest_path`. -/
def joinGuestPath (base : String) (rel : HostPath) : Except GuestPathError String := do
  validateGuestPath base
  validateRelativeGuestPath rel
  match rel with
  | none => .error .notUtf8
  | some text => .ok ((components text).foldl pushComponent (trimEndSlashes base))

/-- `join_guest_component`. -/
def joinGuestComponent (base component : String) : Except GuestPathError String := do
  validateGuestPath base
  if '/' ∈ component.toList ∨ '\\' ∈ component.toList then .error (.separator component)
  else do
    validateGuestComponent component
    .ok (trimEndSlashes base ++ "/" ++ component)

/-! ## What passes -/

def SafeName (name : String) : Prop :=
  (name ≠ "" ∧ name ≠ "." ∧ name ≠ "..") ∧ ∀ c ∈ name.toList, isSafeChar c = true

/-- The names of a path: an absolute path has an empty one in front. -/
def partsOf (absolute : Bool) (names : List String) : List String :=
  if absolute then "" :: names else names

variable {path base text name : String} {names : List String}

theorem validateGuestComponent_iff : validateGuestComponent name = .ok () ↔ SafeName name := by
  unfold validateGuestComponent SafeName
  split
  · rename_i hdots
    simp only [reduceCtorEq, false_iff, not_and]
    intro h
    exact absurd hdots (by simp [h])
  · rename_i hdots
    simp only [not_or] at hdots
    split
    · rename_i hall
      simpa [hdots] using hall
    · rename_i hall
      simpa [hdots] using hall

theorem SafeName.no_slash (h : SafeName name) : '/' ∉ name.toList := by
  intro hmem
  exact absurd (h.2 '/' hmem) (by decide)

theorem validateRawComponents_iff {allowAbsolute : Bool} :
    validateRawComponents path allowAbsolute = .ok () ↔
      ∀ i n, (Paths.names path)[i]? = some n → n ≠ "." ∧ n ≠ ".." ∧
        (n = "" → allowAbsolute = true ∧ i = 0 ∧ Absolute path) := by
  have hcheck : ∀ n i, validateRawComponent path allowAbsolute (n, i) = .ok () ↔
      n ≠ "." ∧ n ≠ ".." ∧ (n = "" → allowAbsolute = true ∧ i = 0 ∧ Absolute path) := by
    intro n i
    unfold validateRawComponent
    by_cases hempty : n = ""
    · simp [hempty]
    · simp [hempty]
  unfold validateRawComponents
  rw [forM_ok_iff]
  constructor
  · intro h i n hn
    exact (hcheck n i).mp (h (n, i) (List.mem_zipIdx_iff_getElem?.mpr hn))
  · rintro h ⟨n, i⟩ hmem
    exact (hcheck n i).mpr (h i n (List.mem_zipIdx_iff_getElem?.mp hmem))

theorem filterMap_component? (h : ∀ n ∈ names, n ≠ "" ∧ n ≠ "." ∧ n ≠ "..") :
    names.filterMap component? = names.map .normal := by
  induction names with
  | nil => rfl
  | cons n names ih =>
    obtain ⟨hempty, hdot, hdots⟩ := h n List.mem_cons_self
    have hn : component? n = some (.normal n) := by
      rw [component?, if_neg (by simp [hempty, hdot]), if_neg hdots]
    rw [List.filterMap_cons_some hn, ih fun x hx => h x (List.mem_cons_of_mem _ hx)]
    rfl

structure MadeOf (path : String) (names : List String) : Prop where
  nonempty : names ≠ []
  dotless : ∀ n ∈ names, n ≠ "" ∧ n ≠ "." ∧ n ≠ ".."
  parts : Paths.names path = partsOf (decide (Absolute path)) names

theorem MadeOf.components_eq (h : MadeOf path names) :
    components path =
      (if Absolute path then [.rootDir] else []) ++ names.map .normal := by
  unfold components
  rw [h.parts]
  by_cases habsolute : Absolute path
  · simp only [habsolute, decide_true, partsOf, if_true]
    rw [List.filterMap_cons_none (by rfl), filterMap_component? h.dotless]
    rfl
  · simp only [habsolute, decide_false, partsOf, if_false, Bool.false_eq_true]
    have hhead : names.head? ≠ some "." := by
      intro hhead
      exact (h.dotless "." (List.mem_of_head? hhead)).2.1 rfl
    rw [if_neg hhead, filterMap_component? h.dotless]
    rfl

/-- The raw components of a path that may be absolute. -/
theorem madeOf_iff : (path ≠ "" ∧ validateRawComponents path true = .ok ()) ↔
    ∃ names, MadeOf path names := by
  rw [validateRawComponents_iff]
  constructor
  · rintro ⟨hne, hraw⟩
    by_cases habsolute : Absolute path
    · obtain ⟨rest, hrest, hnames⟩ := Paths.names_of_slash habsolute
      refine ⟨rest, hrest, ?_, ?_⟩
      · intro n hn
        obtain ⟨i, hi⟩ := List.mem_iff_getElem?.mp hn
        obtain ⟨hdot, hdots, hempty⟩ := hraw (i + 1) n (by rw [hnames]; exact hi)
        refine ⟨?_, hdot, hdots⟩
        intro heq
        exact absurd (hempty heq).2.1 (Nat.succ_ne_zero i)
      · rw [hnames, partsOf, if_pos (by simpa using habsolute)]
    · refine ⟨Paths.names path, Paths.names_ne_nil path, ?_, ?_⟩
      · intro n hn
        obtain ⟨i, hi⟩ := List.mem_iff_getElem?.mp hn
        obtain ⟨hdot, hdots, hempty⟩ := hraw i n hi
        refine ⟨?_, hdot, hdots⟩
        intro heq
        exact habsolute (hempty heq).2.2
      · rw [partsOf, if_neg (by simpa using habsolute)]
  · rintro ⟨names, -, hdotless, hparts⟩
    constructor
    · rintro rfl
      have hmem : "" ∈ names := by
        rw [partsOf, if_neg (by decide)] at hparts
        rw [← hparts]
        exact List.mem_singleton_self ""
      exact (hdotless "" hmem).1 rfl
    · intro i n hn
      rw [hparts] at hn
      by_cases habsolute : Absolute path
      · rw [partsOf, if_pos (by simpa using habsolute)] at hn
        cases i with
        | zero =>
          cases hn
          exact ⟨by decide, by decide, fun _ => ⟨rfl, rfl, habsolute⟩⟩
        | succ i =>
          obtain ⟨hempty, hdot, hdots⟩ := hdotless n (List.mem_of_getElem? hn)
          exact ⟨hdot, hdots, fun h => absurd h hempty⟩
      · rw [partsOf, if_neg (by simpa using habsolute)] at hn
        obtain ⟨hempty, hdot, hdots⟩ := hdotless n (List.mem_of_getElem? hn)
        exact ⟨hdot, hdots, fun h => absurd h hempty⟩

/-- The paths that pass are those of safe names. -/
theorem validateGuestPath_iff : validateGuestPath path = .ok () ↔
    ∃ names, MadeOf path names ∧ ∀ n ∈ names, SafeName n := by
  have hchecks : ∀ names, MadeOf path names →
      ((components path).forM (validateComponent path) = .ok () ↔ ∀ n ∈ names, SafeName n) := by
    intro names hmade
    rw [forM_ok_iff, hmade.components_eq]
    simp only [List.mem_append, List.mem_map]
    constructor
    · intro h n hn
      exact validateGuestComponent_iff.mp (h (.normal n) (Or.inr ⟨n, hn, rfl⟩))
    · rintro h c (hroot | ⟨n, hn, rfl⟩)
      · split at hroot
        · rw [List.mem_singleton] at hroot
          subst hroot
          rfl
        · cases hroot
      · exact validateGuestComponent_iff.mpr (h n hn)
  unfold validateGuestPath
  constructor
  · intro h
    split at h
    · cases h
    · rename_i hne
      obtain ⟨hraw, hcomponents⟩ := bind_ok_iff.mp h
      obtain ⟨names, hmade⟩ := madeOf_iff.mp ⟨hne, hraw⟩
      exact ⟨names, hmade, (hchecks names hmade).mp hcomponents⟩
  · rintro ⟨names, hmade, hsafe⟩
    obtain ⟨hne, hraw⟩ := madeOf_iff.mpr ⟨names, hmade⟩
    rw [if_neg hne]
    exact bind_ok_iff.mpr ⟨hraw, (hchecks names hmade).mpr hsafe⟩

theorem validateRelativeGuestPath_ok {rel : HostPath} (h : validateRelativeGuestPath rel = .ok ()) :
    ∃ text, rel = some text ∧ MadeOf text (Paths.names text) ∧ ¬ Absolute text ∧
      ∀ n ∈ Paths.names text, SafeName n := by
  cases rel with
  | none => cases h
  | some text =>
    obtain ⟨hraw, hcomponents⟩ := bind_ok_iff.mp h
    rw [validateRawComponents_iff] at hraw
    have hdotless : ∀ n ∈ Paths.names text, n ≠ "" ∧ n ≠ "." ∧ n ≠ ".." := by
      intro n hn
      obtain ⟨i, hi⟩ := List.mem_iff_getElem?.mp hn
      obtain ⟨hdot, hdots, hempty⟩ := hraw i n hi
      exact ⟨fun heq => absurd (hempty heq).1 (by decide), hdot, hdots⟩
    have hrelative : ¬ Absolute text := by
      intro habsolute
      obtain ⟨rest, -, hnames⟩ := Paths.names_of_slash habsolute
      exact (hdotless "" (by simp [hnames])).1 rfl
    have hmade : MadeOf text (Paths.names text) := by
      refine ⟨Paths.names_ne_nil text, hdotless, ?_⟩
      rw [partsOf, if_neg (by simpa using hrelative)]
    refine ⟨text, rfl, hmade, hrelative, ?_⟩
    rw [forM_ok_iff, hmade.components_eq, if_neg hrelative, List.nil_append] at hcomponents
    intro n hn
    exact validateGuestComponent_iff.mp (hcomponents (.normal n) (List.mem_map_of_mem hn))

/-! ## Joining -/

theorem getLast?_partsOf (hne : names ≠ []) (absolute : Bool) :
    (partsOf absolute names).getLast? = names.getLast? := by
  obtain ⟨n, rest, rfl⟩ := List.exists_cons_of_ne_nil hne
  cases absolute with
  | true => exact List.getLast?_cons_cons
  | false => rfl

theorem MadeOf.trimEndSlashes_eq (h : MadeOf path names) : trimEndSlashes path = path := by
  have hlast : ∀ chars, path.toList ≠ chars ++ ['/'] := by
    intro chars hchars
    have hnames : Paths.names path = (chars.splitOn '/').map String.ofList ++ [""] := by
      rw [Paths.names, hchars, List.splitOn, List.splitOnP_append_cons _ _ (by decide),
        List.map_append]
      rfl
    have hmem : "" ∈ names := by
      have hparts := congrArg List.getLast? h.parts
      rw [hnames, List.getLast?_concat, getLast?_partsOf h.nonempty] at hparts
      exact List.mem_of_getLast? hparts.symm
    exact (h.dotless "" hmem).1 rfl
  unfold trimEndSlashes
  have hkeep : path.toList.rdropWhile (· = '/') = path.toList := by
    rw [List.rdropWhile_eq_self_iff]
    intro hne hslash
    rw [decide_eq_true_eq] at hslash
    apply hlast path.toList.dropLast
    rw [← hslash]
    exact (List.dropLast_concat_getLast hne).symm
  rw [hkeep, String.ofList_toList]

/-- Pushing names appends them. -/
theorem foldl_pushComponent {parts : List String} (hparts : parts ≠ []) (names : List String) :
    (names.map Component.normal).foldl pushComponent (Paths.unite parts) =
      Paths.unite (parts ++ names) := by
  induction names generalizing parts with
  | nil => rw [List.append_nil]; rfl
  | cons n names ih =>
    rw [List.map_cons, List.foldl_cons, pushComponent, ← Paths.unite_concat hparts,
      ih (by simp), List.append_assoc]
    rfl

/-- A path with names behind it. -/
theorem MadeOf.append {more : List String} (h : MadeOf path names)
    (hmore : ∀ n ∈ more, SafeName n) (hjoined : text = Paths.unite (Paths.names path ++ more)) :
    (Absolute text ↔ Absolute path) ∧ MadeOf text (names ++ more) := by
  have hnames : Paths.names text = Paths.names path ++ more := by
    rw [hjoined]
    apply Paths.names_unite
    · simp [Paths.names_ne_nil]
    · intro part hpart
      rcases List.mem_append.mp hpart with hpart | hpart
      · exact Paths.no_slash_of_mem_names hpart
      · exact (hmore part hpart).no_slash
  obtain ⟨first, rest, hfirst⟩ := List.exists_cons_of_ne_nil h.nonempty
  have habsolute : Absolute text ↔ Absolute path := by
    constructor
    · intro habsolute
      by_contra hrelative
      -- the first name would be empty
      obtain ⟨rest', -, hrest'⟩ := Paths.names_of_slash habsolute
      rw [hnames, h.parts, partsOf, if_neg (by simpa using hrelative), hfirst,
        List.cons_append, List.cons.injEq] at hrest'
      exact (h.dotless first (by simp [hfirst])).1 hrest'.1
    · intro habsolute
      rw [h.parts, partsOf, if_pos (by simpa using habsolute), hfirst] at hnames
      exact Paths.slash_of_names hnames
  refine ⟨habsolute, by simp [hfirst], ?_, ?_⟩
  · intro n hn
    rcases List.mem_append.mp hn with hn | hn
    · exact h.dotless n hn
    · exact (hmore n hn).1
  · rw [hnames, h.parts]
    by_cases hpath : Absolute path
    · simp [partsOf, habsolute, hpath]
    · simp [partsOf, habsolute, hpath]

/-- Where a path leads to. -/
theorem MadeOf.join_eq (h : MadeOf path names) (dir : Paths.Path) :
    Paths.join dir path = (if Absolute path then [] else dir) ++ names := by
  rw [Paths.join, h.parts]
  by_cases habsolute : Absolute path
  · have hhead : path.toList.head? = some '/' := habsolute
    rw [if_pos hhead, if_pos habsolute, partsOf, if_pos (by simpa using habsolute),
      List.foldl_cons]
    exact Paths.foldl_enter h.dotless
  · have hhead : ¬ path.toList.head? = some '/' := habsolute
    rw [if_neg hhead, if_neg habsolute, partsOf, if_neg (by simpa using habsolute)]
    exact Paths.foldl_enter h.dotless

/-- The path is the base with names behind it: it passes, has the components of both, and lies
below the base, from whatever directory the two are looked at. -/
structure Below (base path : String) (more : List Component) : Prop where
  valid : validateGuestPath path = .ok ()
  components_eq : components path = components base ++ more
  nonempty : more ≠ []
  inside : ∀ dir, Paths.Inside (Paths.join dir base) (Paths.join dir path)

theorem MadeOf.below {more : List String} (h : MadeOf base names)
    (hnames : ∀ n ∈ names, SafeName n) (hmore : ∀ n ∈ more, SafeName n) (hne : more ≠ [])
    (hpath : path = Paths.unite (Paths.names base ++ more)) :
    Below base path (more.map .normal) := by
  obtain ⟨habsolute, hmade⟩ := h.append hmore hpath
  refine ⟨?_, ?_, by simpa using hne, ?_⟩
  · rw [validateGuestPath_iff]
    refine ⟨names ++ more, hmade, ?_⟩
    intro n hn
    rcases List.mem_append.mp hn with hn | hn
    · exact hnames n hn
    · exact hmore n hn
  · rw [hmade.components_eq, h.components_eq, List.map_append, List.append_assoc]
    simp only [habsolute]
  · intro dir
    rw [hmade.join_eq, h.join_eq]
    simp only [habsolute]
    rw [← List.append_assoc]
    refine ⟨List.prefix_append _ _, ?_⟩
    simpa using hne

theorem joinGuestPath_ok {rel : HostPath} (h : joinGuestPath base rel = .ok path) :
    ∃ names text, rel = some text ∧ MadeOf base names ∧ (∀ n ∈ names, SafeName n) ∧
      MadeOf text (Paths.names text) ∧ ¬ Absolute text ∧ (∀ n ∈ Paths.names text, SafeName n) ∧
      path = Paths.unite (Paths.names base ++ Paths.names text) := by
  obtain ⟨_, hbase, h⟩ := bind_ok h
  obtain ⟨_, hrel, h⟩ := bind_ok h
  obtain ⟨names, hmade, hnames⟩ := validateGuestPath_iff.mp hbase
  obtain ⟨text, rfl, hrelative, hnotAbsolute, hsafe⟩ := validateRelativeGuestPath_ok hrel
  refine ⟨names, text, rfl, hmade, hnames, hrelative, hnotAbsolute, hsafe, ?_⟩
  cases h
  rw [hrelative.components_eq, if_neg hnotAbsolute, List.nil_append, hmade.trimEndSlashes_eq]
  conv_lhs => rw [← Paths.unite_names base]
  exact foldl_pushComponent (Paths.names_ne_nil base) _

/-- **Joining paths.** What is joined passes the check again, has the components of the base and
then the relative ones, and lies below the base. -/
theorem join_guest_below :
    (∀ base rel path, joinGuestPath base rel = .ok path →
        ∃ text, rel = some text ∧ Below base path (components text)) ∧
      ∀ base component path, joinGuestComponent base component = .ok path →
        Below base path [.normal component] := by
  constructor
  · intro base rel path h
    obtain ⟨names, text, rfl, hmade, hnames, hrelative, hnotAbsolute, hsafe, hpath⟩ :=
      joinGuestPath_ok h
    have hcomponents : components text = (Paths.names text).map .normal := by
      rw [hrelative.components_eq, if_neg hnotAbsolute, List.nil_append]
    refine ⟨text, rfl, ?_⟩
    rw [hcomponents]
    exact hmade.below hnames hsafe hrelative.nonempty hpath
  · intro base component path h
    obtain ⟨_, hbase, h⟩ := bind_ok h
    obtain ⟨names, hmade, hnames⟩ := validateGuestPath_iff.mp hbase
    split at h
    · cases h
    · obtain ⟨_, hcomponent, h⟩ := bind_ok h
      cases h
      have hsafe : ∀ n ∈ [component], SafeName n := by
        simpa using validateGuestComponent_iff.mp hcomponent
      apply hmade.below hnames hsafe (by simp)
      rw [hmade.trimEndSlashes_eq, Paths.unite_concat (Paths.names_ne_nil base), Paths.unite_names]

/-- A storage directory of the guest and a file below it. -/
theorem join_guest_storage :
    Below "/run/kuasar/state" "/run/kuasar/state/storage-1" [.normal "storage-1"] ∧
      ∃ text, some "etc/hosts" = some text ∧
        Below "/run/kuasar/state" "/run/kuasar/state/etc/hosts" (components text) :=
  ⟨join_guest_below.2 _ _ _ (by decide), join_guest_below.1 _ _ _ (by decide)⟩

end Kuasar.GuestPaths

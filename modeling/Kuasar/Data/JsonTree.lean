import Kuasar.Data.Assoc
import Mathlib.Data.List.Infix

/-!
# Data.JsonTree — JSON documents and changes at a place

A document is a tree of objects and arrays over scalars; what numbers are is left open. A
place in it is a path of field names and array positions. Two documents are the same at a
place if both have a node there with the same own data: the scalar, the length of the array,
or that it is an object.

`modifyAt` changes a document at a path of field names. It changes nothing outside
(`node_modifyAt`) and has the new value there (`at_modifyAt`).
-/

universe u

/-- A JSON document with numbers in `ν`. The order of the fields of an object has no meaning;
of two fields with one name the first counts. -/
inductive JsonTree (ν : Type u) where
  | null
  | bool (b : Bool)
  | num (n : ν)
  | str (s : String)
  | arr (items : List (JsonTree ν))
  | obj (fields : List (String × JsonTree ν))

namespace JsonTree

variable {ν : Type u}

/-! ## Fields -/

/-- The value of a field of an object. -/
def get (tree : JsonTree ν) (name : String) : Option (JsonTree ν) :=
  match tree with
  | .obj fields => fields.lookup name
  | _ => none

/-- The text of a string. -/
def asStr : JsonTree ν → Option String
  | .str s => some s
  | _ => none

/-- Set a field of an object. -/
def put (tree : JsonTree ν) (name : String) (value : JsonTree ν) : JsonTree ν :=
  match tree with
  | .obj fields => .obj (Assoc.set name value fields)
  | tree => tree

variable {name : String} {key : Key}

theorem get_put {key : String} {value old tree : JsonTree ν} (h : tree.get key = some old)
    (name' : String) :
    (tree.put name value).get name' = if name' = name then some value else tree.get name' := by
  cases tree with
  | obj fields => exact Assoc.lookup_set name' name value fields
  | null => cases h
  | bool b => cases h
  | num n => cases h
  | str s => cases h
  | arr items => cases h

/-! ## Places -/

/-- A step down a document. -/
inductive Key where
  | field (name : String)
  | index (i : ℕ)
  deriving DecidableEq, Repr

/-- What is one step down. -/
def child (tree : JsonTree ν) : Key → Option (JsonTree ν)
  | .field name => tree.get name
  | .index i =>
    match tree with
    | .arr items => items[i]?
    | _ => none

/-- What is at a place. -/
def at? : JsonTree ν → List Key → Option (JsonTree ν)
  | tree, [] => some tree
  | tree, key :: path => (tree.child key).bind fun below => below.at? path

@[simp] theorem at?_nil (tree : JsonTree ν) : tree.at? [] = some tree := rfl

theorem at?_cons (tree : JsonTree ν) (key : Key) (path : List Key) :
    tree.at? (key :: path) = (tree.child key).bind fun below => below.at? path := rfl

inductive Node (ν : Type u) where
  | null
  | bool (b : Bool)
  | num (n : ν)
  | str (s : String)
  | arr (length : ℕ)
  | obj

/-- The own data of the root. -/
def node : JsonTree ν → Node ν
  | .null => .null
  | .bool b => .bool b
  | .num n => .num n
  | .str s => .str s
  | .arr items => .arr items.length
  | .obj _ => .obj

def nodeAt (tree : JsonTree ν) (path : List Key) : Option (Node ν) := (tree.at? path).map node

/-! ## Changes -/

/-- Change what is at a path of field names; `none` if there is nothing. -/
def modifyAt (f : JsonTree ν → JsonTree ν) : List String → JsonTree ν → Option (JsonTree ν)
  | [], tree => some (f tree)
  | name :: names, tree =>
    (tree.get name).bind fun below =>
      (modifyAt f names below).map fun below' => tree.put name below'

/-- The place that a path of field names leads to. -/
def place (names : List String) : List Key := names.map Key.field

variable {f : JsonTree ν → JsonTree ν} {names : List String} {tree tree' : JsonTree ν}

/-- A change one level down. -/
theorem modifyAt_cons (h : modifyAt f (name :: names) tree = some tree') :
    ∃ below below', tree.get name = some below ∧ modifyAt f names below = some below' ∧
      tree' = tree.put name below' := by
  rw [modifyAt, Option.bind_eq_some_iff] at h
  obtain ⟨below, hbelow, h⟩ := h
  obtain ⟨below', hbelow', h⟩ := Option.map_eq_some_iff.mp h
  exact ⟨below, below', hbelow, hbelow', h.symm⟩

theorem modifyAt_isSome (f : JsonTree ν → JsonTree ν) (names : List String) (tree : JsonTree ν) :
    (modifyAt f names tree).isSome = (tree.at? (place names)).isSome := by
  induction names generalizing tree with
  | nil => rfl
  | cons name names ih =>
    have hat : tree.at? (place (name :: names)) =
        (tree.get name).bind fun below => below.at? (place names) := rfl
    rw [hat, modifyAt]
    cases tree.get name with
    | none => rfl
    | some below => simpa using ih below

/-- What a change does at the place itself and below. -/
theorem at?_modifyAt (h : modifyAt f names tree = some tree') (path : List Key) :
    ∃ old, tree.at? (place names) = some old ∧
      tree'.at? (place names ++ path) = (f old).at? path := by
  induction names generalizing tree tree' with
  | nil =>
    cases h
    exact ⟨tree, rfl, rfl⟩
  | cons name names ih =>
    obtain ⟨below, below', hget, hbelow, rfl⟩ := modifyAt_cons h
    obtain ⟨old, hold, hnew⟩ := ih hbelow
    refine ⟨old, ?_, ?_⟩
    · change (tree.get name).bind _ = _
      rw [hget]
      exact hold
    · change ((tree.put name below').get name).bind _ = _
      rw [get_put hget, if_pos rfl]
      exact hnew

theorem child_put {below below' : JsonTree ν} (h : tree.get name = some below)
    (hkey : key ≠ .field name) : (tree.put name below').child key = tree.child key := by
  cases tree with
  | obj fields =>
    cases key with
    | field name' =>
      have hname : name' ≠ name := fun heq => hkey (congrArg Key.field heq)
      exact (get_put h name').trans (if_neg hname)
    | index i => rfl
  | null => cases h
  | bool b => cases h
  | num n => cases h
  | str s => cases h
  | arr items => cases h

theorem node_put (tree : JsonTree ν) (name : String) (below : JsonTree ν) :
    (tree.put name below).node = tree.node := by
  cases tree <;> rfl

/-- What a change does everywhere else. -/
theorem nodeAt_modifyAt (h : modifyAt f names tree = some tree') {path : List Key}
    (hpath : ¬ place names <+: path) : tree'.nodeAt path = tree.nodeAt path := by
  induction names generalizing tree tree' path with
  | nil => exact absurd (List.nil_prefix) hpath
  | cons name names ih =>
    obtain ⟨below, below', hget, hbelow, rfl⟩ := modifyAt_cons h
    cases path with
    | nil => exact congrArg some (tree.node_put name below')
    | cons key path =>
      by_cases hkey : key = .field name
      · -- down into the changed field
        rw [hkey] at hpath ⊢
        have hbelowPath : ¬ place names <+: path := by
          intro hpre
          exact hpath (List.cons_prefix_cons.mpr ⟨rfl, hpre⟩)
        have hnew : (tree.put name below').child (.field name) = some below' :=
          (get_put hget name).trans (if_pos rfl)
        have hold : tree.child (.field name) = some below := hget
        have hih := ih hbelow hbelowPath
        unfold nodeAt at hih ⊢
        rw [at?_cons, at?_cons, hnew, hold]
        exact hih
      · unfold nodeAt
        rw [at?_cons, at?_cons, child_put hget hkey]

/-- A change in one field of the root leaves what is in the others. -/
theorem at?_modifyAt_of_ne (h : modifyAt f (name :: names) tree = some tree')
    (hkey : key ≠ .field name) (path : List Key) :
    tree'.at? (key :: path) = tree.at? (key :: path) := by
  obtain ⟨below, below', hget, -, rfl⟩ := modifyAt_cons h
  rw [at?_cons, at?_cons, child_put hget hkey]

/-- Change what is at a path of field names, if there is something. -/
def updateAt (f : JsonTree ν → JsonTree ν) (names : List String) (tree : JsonTree ν) :
    JsonTree ν :=
  (modifyAt f names tree).getD tree

theorem at?_updateAt (f : JsonTree ν → JsonTree ν) (names : List String) (tree : JsonTree ν) :
    (updateAt f names tree).at? (place names) = (tree.at? (place names)).map f := by
  have hsome := modifyAt_isSome f names tree
  unfold updateAt
  cases h : modifyAt f names tree with
  | none =>
    rw [h, Option.isSome_none, eq_comm, Option.isSome_eq_false_iff, Option.isNone_iff_eq_none]
      at hsome
    rw [Option.getD_none, hsome]
    rfl
  | some tree' =>
    obtain ⟨old, hold, hnew⟩ := at?_modifyAt h []
    rw [List.append_nil, at?_nil] at hnew
    rw [Option.getD_some, hnew, hold]
    rfl

theorem nodeAt_updateAt {path : List Key} (hpath : ¬ place names <+: path) :
    (updateAt f names tree).nodeAt path = tree.nodeAt path := by
  unfold updateAt
  cases h : modifyAt f names tree with
  | none => rfl
  | some tree' => exact nodeAt_modifyAt h hpath

theorem at?_updateAt_of_ne (hkey : key ≠ .field name) (path : List Key) :
    (updateAt f (name :: names) tree).at? (key :: path) = tree.at? (key :: path) := by
  unfold updateAt
  cases h : modifyAt f (name :: names) tree with
  | none => rfl
  | some tree' => exact at?_modifyAt_of_ne h hkey path

end JsonTree

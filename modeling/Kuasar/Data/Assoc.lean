import Mathlib.Data.List.Nodup

/-!
# Data.Assoc — maps as lists of pairs

A map is a list of keys with their values, in which the first value of a key counts. Setting
a key replaces its value, or adds it at the end.

Setting all pairs of a list, one after the other, gives the pairs of the list precedence
(`lookup_setAll`); selecting and renaming keys gives the values of the original names
(`lookup_rename`).
-/

universe u v w

namespace Assoc

variable {α : Type u} {β : Type v} [DecidableEq α]

def set (key : α) (value : β) : List (α × β) → List (α × β)
  | [] => [(key, value)]
  | (key', value') :: rest =>
    if key' = key then (key, value) :: rest else (key', value') :: set key value rest

theorem lookup_cons (key key' : α) (value : β) (m : List (α × β)) :
    ((key', value) :: m).lookup key = if key = key' then some value else m.lookup key := by
  rw [List.lookup_cons]
  by_cases h : key = key'
  · rw [if_pos h, beq_iff_eq.mpr h]
  · rw [if_neg h, beq_false_of_ne h]

theorem lookup_set (key key' : α) (value : β) (m : List (α × β)) :
    (set key' value m).lookup key = if key = key' then some value else m.lookup key := by
  induction m with
  | nil => exact lookup_cons key key' value []
  | cons entry m ih =>
    obtain ⟨key'', value''⟩ := entry
    unfold set
    split
    · rename_i hsame
      rw [lookup_cons, lookup_cons, hsame]
      split
      · rfl
      · rfl
    · rename_i hother
      rw [lookup_cons, lookup_cons, ih]
      by_cases hkey : key = key''
      · rw [if_pos hkey, if_pos hkey, if_neg (hkey ▸ hother)]
      · rw [if_neg hkey, if_neg hkey]

theorem lookup_eq_none {key : α} {m : List (α × β)} (h : key ∉ m.map Prod.fst) :
    m.lookup key = none := by
  rw [List.lookup_eq_none_iff]
  intro entry hentry
  rw [bne_iff_ne]
  rintro rfl
  exact h (List.mem_map_of_mem hentry)

def setAll (m : List (α × β)) (entries : List (α × β)) : List (α × β) :=
  entries.foldl (fun m entry => set entry.1 entry.2 m) m

theorem lookup_setAll {entries : List (α × β)} (h : (entries.map Prod.fst).Nodup)
    (m : List (α × β)) (key : α) :
    (setAll m entries).lookup key = (entries.lookup key).or (m.lookup key) := by
  induction entries generalizing m with
  | nil => rfl
  | cons entry entries ih =>
    obtain ⟨key', value⟩ := entry
    rw [List.map_cons, List.nodup_cons] at h
    obtain ⟨hfresh, h⟩ := h
    change (setAll (set key' value m) entries).lookup key = _
    rw [ih h, lookup_set, lookup_cons]
    by_cases hkey : key = key'
    · rw [if_pos hkey, if_pos hkey, hkey, lookup_eq_none hfresh]
      rfl
    · rw [if_neg hkey, if_neg hkey]

/-! ## Renaming -/

variable {γ : Type w} [DecidableEq γ]

/-- The pairs whose keys have a new name, with that name. -/
def rename (name : α → Option γ) (m : List (α × β)) : List (γ × β) :=
  m.filterMap fun entry => (name entry.1).map fun key => (key, entry.2)

/-- A new name has the value of the key that it comes from. -/
theorem lookup_rename {name : α → Option γ} {origin : γ → α}
    (h : ∀ key key', name key = some key' ↔ key = origin key') (m : List (α × β)) (key' : γ) :
    (rename name m).lookup key' = m.lookup (origin key') := by
  induction m with
  | nil => rfl
  | cons entry m ih =>
    obtain ⟨key, value⟩ := entry
    rw [lookup_cons]
    cases hname : name key with
    | none =>
      have hother : origin key' ≠ key := by
        rintro rfl
        rw [(h _ key').mpr rfl] at hname
        cases hname
      have hdrop : rename name ((key, value) :: m) = rename name m :=
        List.filterMap_cons_none (by rw [hname]; rfl)
      rw [hdrop, if_neg hother, ih]
    | some key'' =>
      have hkeep : rename name ((key, value) :: m) = (key'', value) :: rename name m :=
        List.filterMap_cons_some (by rw [hname]; rfl)
      rw [hkeep, lookup_cons, ih]
      have hiff : key' = key'' ↔ origin key' = key := by
        rw [eq_comm (a := origin key'), ← h, hname, Option.some.injEq, eq_comm]
      simp only [hiff]

omit [DecidableEq α] [DecidableEq γ] in
/-- Keys of which no two get one name stay different. -/
theorem nodup_rename {name : α → Option γ} {origin : γ → α}
    (h : ∀ key key', name key = some key' ↔ key = origin key') {m : List (α × β)}
    (hm : (m.map Prod.fst).Nodup) : ((rename name m).map Prod.fst).Nodup := by
  have hkeys : (rename name m).map Prod.fst = (m.map Prod.fst).filterMap name := by
    rw [rename, List.map_filterMap, List.filterMap_map]
    congr 1
    funext entry
    simp [Option.map_map, Function.comp_def]
  rw [hkeys]
  refine hm.filterMap ?_
  intro key key' name' hkey hkey'
  exact ((h key name').mp hkey).trans ((h key' name').mp hkey').symm

end Assoc

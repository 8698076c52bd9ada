import Mathlib.Algebra.BigOperators.Group.List.Basic
import Mathlib.Data.List.Nodup

/-!
# Data.FirstMatch — updating the first element that passes a test

A list is searched for the first element that passes a test, and changed there. What the change
leaves alone is stated for any function or test of the elements that does not see it
(`map_updateFirst`, `findIdx?_updateFirst`).
-/

namespace FirstMatch

variable {α β : Type*} {p q : α → Bool} {f : α → α} {l : List α} {x y : α}

/-- Change the first element that passes the test. -/
def updateFirst (p : α → Bool) (f : α → α) : List α → List α
  | [] => []
  | x :: l => if p x then f x :: l else x :: updateFirst p f l

/-- There is nothing to change. -/
theorem updateFirst_of_find?_eq_none (h : l.find? p = none) : updateFirst p f l = l := by
  induction l with
  | nil => rfl
  | cons x l ih =>
    rw [List.find?_cons] at h
    rcases hp : p x with _ | _
    · rw [hp] at h
      rw [updateFirst, hp, ih h]
      rfl
    · rw [hp] at h
      cases h

/-- The match comes after elements that do not pass. -/
theorem updateFirst_append {post : List α} (h : ∀ y ∈ l, p y = false) (hx : p x = true) :
    updateFirst p f (l ++ x :: post) = l ++ f x :: post := by
  induction l with
  | nil => simp [updateFirst, hx]
  | cons y l ih =>
    rw [List.forall_mem_cons] at h
    rw [List.cons_append, updateFirst, h.1, ih h.2]
    rfl

theorem updateFirst_split (h : l.find? p = some x) :
    ∃ pre post, l = pre ++ x :: post ∧ (∀ y ∈ pre, p y = false) ∧
      updateFirst p f l = pre ++ f x :: post := by
  obtain ⟨hx, pre, post, rfl, hpre⟩ := List.find?_eq_some_iff_append.mp h
  have hfalse : ∀ y ∈ pre, p y = false := fun y hy => by simpa using hpre y hy
  exact ⟨pre, post, rfl, hfalse, updateFirst_append hfalse hx⟩

/-- An element of the changed list was there, or is the one that changed. -/
theorem mem_updateFirst (h : y ∈ updateFirst p f l) :
    y ∈ l ∨ ∃ x, l.find? p = some x ∧ y = f x := by
  rcases hx : l.find? p with _ | x
  · rw [updateFirst_of_find?_eq_none hx] at h
    exact .inl h
  · obtain ⟨pre, post, hl, -, hup⟩ := @updateFirst_split _ p f _ _ hx
    rw [hup] at h
    rcases List.mem_append.mp h with h | h
    · exact .inl (hl ▸ List.mem_append_left _ h)
    · rcases List.mem_cons.mp h with rfl | h
      · exact .inr ⟨x, rfl, rfl⟩
      · exact .inl (hl ▸ List.mem_append_right _ (List.mem_cons_of_mem x h))

/-- An element of the list is still there, or it is the one that changed. -/
theorem mem_updateFirst_of_mem (h : y ∈ l) :
    y ∈ updateFirst p f l ∨ (p y = true ∧ f y ∈ updateFirst p f l) := by
  rcases hx : l.find? p with _ | x
  · rw [updateFirst_of_find?_eq_none hx]
    exact .inl h
  · obtain ⟨pre, post, hl, -, hup⟩ := @updateFirst_split _ p f _ _ hx
    rw [hup]
    rw [hl] at h
    rcases List.mem_append.mp h with h | h
    · exact .inl (List.mem_append_left _ h)
    · rcases List.mem_cons.mp h with rfl | h
      · exact .inr ⟨List.find?_some hx, List.mem_append_right _ List.mem_cons_self⟩
      · exact .inl (List.mem_append_right _ (List.mem_cons_of_mem _ h))

/-- A function that does not see the change. -/
theorem map_updateFirst {g : α → β} (hg : ∀ x, g (f x) = g x) :
    (updateFirst p f l).map g = l.map g := by
  induction l with
  | nil => rfl
  | cons x l ih =>
    rw [updateFirst]
    split
    · rw [List.map_cons, List.map_cons, hg]
    · rw [List.map_cons, List.map_cons, ih]

theorem length_updateFirst : (updateFirst p f l).length = l.length := by
  have hmap := congrArg List.length (@map_updateFirst _ Unit p f l (fun _ => ()) fun _ => rfl)
  rw [List.length_map, List.length_map] at hmap
  exact hmap

/-- A test that does not see the change finds its first element at the same place. -/
theorem findIdx?_updateFirst (hq : ∀ x, q (f x) = q x) :
    (updateFirst p f l).findIdx? q = l.findIdx? q := by
  induction l with
  | nil => rfl
  | cons x l ih =>
    rw [updateFirst]
    split
    · rw [List.findIdx?_cons, List.findIdx?_cons, hq]
    · rw [List.findIdx?_cons, List.findIdx?_cons, ih]

/-- The change by position. -/
theorem getElem?_updateFirst (i : ℕ) :
    (updateFirst p f l)[i]? = if l.findIdx? p = some i then l[i]?.map f else l[i]? := by
  induction l generalizing i with
  | nil => simp [updateFirst]
  | cons x l ih =>
    rw [updateFirst, List.findIdx?_cons]
    rcases hp : p x with _ | _
    · rcases i with _ | i
      · simp
      · simp only [Bool.false_eq_true, if_false, List.getElem?_cons_succ, ih,
          Option.map_eq_some_iff, Nat.add_right_cancel_iff, exists_eq_right]
    · rcases i with _ | i
      · simp
      · simp

/-- How many elements pass another test: only the one that changed counts differently. -/
theorem countP_updateFirst (h : l.find? p = some x) :
    (updateFirst p f l).countP q + [x].countP q = l.countP q + [f x].countP q := by
  obtain ⟨pre, post, rfl, -, hup⟩ := @updateFirst_split _ p f _ _ h
  rw [hup]
  simp only [List.countP_append, List.countP_cons, List.countP_nil]
  omega

/-- A sum over the list changes by what the element that changes gains. -/
theorem sum_map_updateFirst {M : Type*} [AddCommMonoid M] {w : α → M} {v : M}
    (h : l.find? p = some x) (hf : w (f x) = w x + v) :
    ((updateFirst p f l).map w).sum = (l.map w).sum + v := by
  obtain ⟨pre, post, rfl, -, hup⟩ := @updateFirst_split _ p f _ _ h
  rw [hup]
  simp only [List.map_append, List.sum_append, List.map_cons, List.sum_cons, hf, add_assoc,
    add_comm v]

theorem mem_concat : y ∈ l ++ [x] ↔ y ∈ l ∨ y = x := by
  rw [List.mem_append, List.mem_singleton]

/-- One more element, whose image is new. -/
theorem nodup_map_concat {g : α → β} (h : (l.map g).Nodup) (hx : ∀ y ∈ l, g y ≠ g x) :
    ((l ++ [x]).map g).Nodup := by
  rw [List.map_append, List.map_singleton, List.nodup_append]
  refine ⟨h, List.nodup_singleton (g x), ?_⟩
  intro a ha b hb
  obtain ⟨y, hy, rfl⟩ := List.mem_map.mp ha
  rw [List.mem_singleton.mp hb]
  exact hx y hy

/-- An element is found by an image that no other has. -/
theorem find?_of_nodup_map [DecidableEq β] {g : α → β} (h : (l.map g).Nodup) (hx : x ∈ l) :
    l.find? (fun y => g y = g x) = some x := by
  cases hfind : l.find? (fun y => g y = g x) with
  | none => simpa using List.find?_eq_none.mp hfind x hx
  | some y =>
    have hy : g y = g x := by simpa using List.find?_some hfind
    rw [List.inj_on_of_nodup_map h (List.mem_of_find?_eq_some hfind) hx hy]

/-- The first match, taken out and put in front. -/
theorem cons_eraseP_perm (h : l.find? p = some x) : (x :: l.eraseP p).Perm l := by
  induction l with
  | nil => cases h
  | cons y l ih =>
    rw [List.find?_cons] at h
    rw [List.eraseP_cons]
    rcases hp : p y with _ | _ <;> rw [hp] at h
    · exact (List.Perm.swap y x _).trans ((ih h).cons y)
    · cases h
      exact List.Perm.refl _

/-- What is found is at the position that is found. -/
theorem find?_eq_some_iff_getElem? :
    l.find? p = some x ↔ ∃ i, l.findIdx? p = some i ∧ l[i]? = some x := by
  rw [List.find?_eq_bind_findIdx?_getElem?, Option.bind_eq_some_iff]

end FirstMatch

import Mathlib.Algebra.GroupWithZero.Nat
import Kuasar.Data.FirstMatch

/-!
# Data.Queues — a hash map of double-ended queues

A finite map from keys to queues, in the order in which an iteration over the
map visits the keys. The order of a hash map is arbitrary: nothing below fixes
it, and `Rehashed` says that two maps differ in it only.

`all` is every element in iteration order. Each operation comes with what it
does to the queue of one key and with what it does to `all` up to permutation;
clients argue with these two and never open an operation.
-/

universe u v

/-- Queues by key, in iteration order; no key has two queues. -/
@[ext] structure Queues (κ : Type u) (α : Type v) where
  entries : List (κ × List α)
  nodup : (entries.map Prod.fst).Nodup

namespace Queues

variable {κ : Type u} {α : Type v}

/-- The map without keys. -/
def empty : Queues κ α := ⟨[], by simp⟩

/-- Every element, in iteration order. -/
def all (q : Queues κ α) : List α := (q.entries.map Prod.snd).flatten

/-- The number of elements over all keys. -/
def size (q : Queues κ α) : Nat := (q.entries.map fun e => e.2.length).sum

/-- The same map visited in another order. -/
def Rehashed (q q' : Queues κ α) : Prop := q.entries.Perm q'.entries

theorem Rehashed.all_perm {q q' : Queues κ α} (h : Rehashed q q') : q.all.Perm q'.all :=
  (List.Perm.map Prod.snd h).flatten

theorem size_eq (q : Queues κ α) : q.size = q.all.length := by
  simp [size, all, Function.comp_def]

/-! ## Operations that do not look at the keys -/

/-- Remove the first element that satisfies `p`, in iteration order. -/
def removeEntry (p : α → Bool) : List (κ × List α) → Option (α × List (κ × List α))
  | [] => none
  | (k, l) :: es =>
    match l.find? p with
    | some a => some (a, (k, l.eraseP p) :: es)
    | none => (removeEntry p es).map fun r => (r.1, (k, l) :: r.2)

variable {p : α → Bool} {es es' : List (κ × List α)} {q q' : Queues κ α} {k k' : κ} {a : α}

/-- What is taken out is the first match of one queue; the entries around it stay. -/
theorem removeEntry_split (h : removeEntry p es = some (a, es')) :
    ∃ xs k l ys, es = xs ++ (k, l) :: ys ∧ l.find? p = some a ∧
      es' = xs ++ (k, l.eraseP p) :: ys := by
  induction es generalizing es' with
  | nil => simp [removeEntry] at h
  | cons e es ih =>
    obtain ⟨k, l⟩ := e
    rw [removeEntry] at h
    split at h
    · rename_i b hb
      obtain ⟨rfl, rfl⟩ := h
      exact ⟨[], k, l, es, rfl, hb, rfl⟩
    · simp only [Option.map_eq_some_iff, Prod.mk.injEq] at h
      obtain ⟨⟨b, es₁⟩, hr, rfl, rfl⟩ := h
      obtain ⟨xs, k', l', ys, rfl, hl, rfl⟩ := ih hr
      exact ⟨(k, l) :: xs, k', l', ys, rfl, hl, rfl⟩

theorem removeEntry_keys (h : removeEntry p es = some (a, es')) :
    es'.map Prod.fst = es.map Prod.fst := by
  obtain ⟨xs, k, l, ys, rfl, -, rfl⟩ := removeEntry_split h
  simp

/-- Take out the first element that satisfies `p`. -/
def removeFirst (q : Queues κ α) (p : α → Bool) : Option (α × Queues κ α) :=
  match h : removeEntry p q.entries with
  | none => none
  | some (a, es) => some (a, ⟨es, by rw [removeEntry_keys h]; exact q.nodup⟩)

/-- Keep the elements that satisfy `p`, in every queue. -/
def retain (q : Queues κ α) (p : α → Bool) : Queues κ α where
  entries := q.entries.map fun e => (e.1, e.2.filter p)
  nodup := by
    rw [List.map_map]
    exact q.nodup

theorem removeFirst_entries (h : q.removeFirst p = some (a, q')) :
    removeEntry p q.entries = some (a, q'.entries) := by
  unfold removeFirst at h
  split at h
  · exact absurd h (by simp)
  · rename_i b es hes
    simp only [Option.some.injEq, Prod.mk.injEq] at h
    rw [hes, ← h.1, ← h.2]

theorem removeEntry_spec (h : removeEntry p es = some (a, es')) :
    p a = true ∧ ((es.map Prod.snd).flatten).Perm (a :: (es'.map Prod.snd).flatten) := by
  obtain ⟨xs, k, l, ys, rfl, hl, rfl⟩ := removeEntry_split h
  refine ⟨List.find?_some hl, ?_⟩
  simp only [List.map_append, List.map_cons, List.flatten_append, List.flatten_cons]
  have hperm := (FirstMatch.cons_eraseP_perm hl).symm.append_right (ys.map Prod.snd).flatten
  exact (hperm.append_left _).trans List.perm_middle

/-- What `removeFirst` takes out satisfies the test, and nothing else goes. -/
theorem removeFirst_spec (h : q.removeFirst p = some (a, q')) :
    p a = true ∧ q.all.Perm (a :: q'.all) :=
  removeEntry_spec (removeFirst_entries h)

theorem removeEntry_fst (p : α → Bool) (es : List (κ × List α)) :
    (removeEntry p es).map Prod.fst = ((es.map Prod.snd).flatten).find? p := by
  induction es with
  | nil => simp [removeEntry]
  | cons e es ih =>
    obtain ⟨k, l⟩ := e
    rw [removeEntry, List.map_cons, List.flatten_cons, List.find?_append]
    cases hl : l.find? p with
    | some a => simp
    | none => simpa [Function.comp_def] using ih

/-- `removeFirst` takes out what a search would find. -/
theorem removeFirst_fst (q : Queues κ α) (p : α → Bool) :
    (q.removeFirst p).map Prod.fst = q.all.find? p := by
  rw [all, ← removeEntry_fst]
  unfold removeFirst
  split
  · rename_i h
    simp [h]
  · rename_i a es h
    simp [h]

theorem all_retain (q : Queues κ α) (p : α → Bool) : (q.retain p).all = q.all.filter p := by
  simp [retain, all, List.filter_flatten, Function.comp_def]

theorem retain_true (q : Queues κ α) : (q.retain fun _ => true) = q := by
  ext1
  simp [retain]

theorem retain_retain (q : Queues κ α) (p r : α → Bool) :
    (q.retain p).retain r = q.retain fun a => p a && r a := by
  ext1
  simp [retain, List.filter_filter, Function.comp_def, Bool.and_comm]

/-! ## Operations on the queue of one key -/

variable [DecidableEq κ]

/-- Rewrite the queue of `k`. -/
def adjustEntry (k : κ) (f : List α → List α) : List (κ × List α) → List (κ × List α)
  | [] => []
  | (k', l) :: es => if k' = k then (k', f l) :: es else (k', l) :: adjustEntry k f es

/-- Append `a` to the queue of `k`, which is made if there is none. -/
def pushEntry (k : κ) (a : α) : List (κ × List α) → List (κ × List α)
  | [] => [(k, [a])]
  | (k', l) :: es => if k' = k then (k', l ++ [a]) :: es else (k', l) :: pushEntry k a es

/-- The queue of `k` in the list of entries, empty if it has none. -/
def queueEntry (k : κ) : List (κ × List α) → List α
  | [] => []
  | (k', l) :: es => if k' = k then l else queueEntry k es

theorem adjustEntry_keys (k : κ) (f : List α → List α) (es : List (κ × List α)) :
    (adjustEntry k f es).map Prod.fst = es.map Prod.fst := by
  induction es with
  | nil => rfl
  | cons e es ih =>
    obtain ⟨k', l⟩ := e
    by_cases h : k' = k
    · simp [adjustEntry, h]
    · simp [adjustEntry, h, ih]

theorem pushEntry_keys (k : κ) (a : α) (es : List (κ × List α)) :
    (pushEntry k a es).map Prod.fst =
      if k ∈ es.map Prod.fst then es.map Prod.fst else es.map Prod.fst ++ [k] := by
  induction es with
  | nil => simp [pushEntry]
  | cons e es ih =>
    obtain ⟨k', l⟩ := e
    by_cases h : k' = k
    · simp [pushEntry, h]
    · have h' : k ≠ k' := fun hk => h hk.symm
      rw [pushEntry, if_neg h, List.map_cons, List.map_cons, ih]
      by_cases hm : k ∈ es.map Prod.fst
      · rw [if_pos hm, if_pos (List.mem_cons_of_mem _ hm)]
      · have hm' : k ∉ k' :: es.map Prod.fst := by
          rw [List.mem_cons, not_or]
          exact ⟨h', hm⟩
        rw [if_neg hm, if_neg hm', List.cons_append]

theorem queueEntry_of_not_mem (hk : k ∉ es.map Prod.fst) : queueEntry k es = [] := by
  induction es with
  | nil => rfl
  | cons e es ih =>
    obtain ⟨k₁, l⟩ := e
    rw [List.map_cons, List.mem_cons, not_or] at hk
    rw [queueEntry, if_neg (Ne.symm hk.1), ih hk.2]

theorem queueEntry_of_mem {l : List α} (he : (k, l) ∈ es) (hnd : (es.map Prod.fst).Nodup) :
    queueEntry k es = l := by
  induction es with
  | nil => simp at he
  | cons e es ih =>
    obtain ⟨k₁, l₁⟩ := e
    rw [List.map_cons, List.nodup_cons] at hnd
    rcases List.mem_cons.mp he with heq | hes
    · simp only [Prod.mk.injEq] at heq
      simp [queueEntry, heq.1, heq.2]
    · have hne : k₁ ≠ k := by
        intro hk
        exact hnd.1 (List.mem_map.mpr ⟨(k, l), hes, hk.symm⟩)
      rw [queueEntry, if_neg hne]
      exact ih hes hnd.2

theorem queueEntry_replace {xs ys : List (κ × List α)} (l l' : List α) (hk : k ≠ k') :
    queueEntry k' (xs ++ (k, l) :: ys) = queueEntry k' (xs ++ (k, l') :: ys) := by
  induction xs with
  | nil => simp [queueEntry, hk]
  | cons e xs ih => simp [queueEntry, ih]

/-- The queue of `k`, empty if it has none. -/
def queue (q : Queues κ α) (k : κ) : List α := queueEntry k q.entries

/-- Append `a` to the queue of `k`. -/
def pushBack (q : Queues κ α) (k : κ) (a : α) : Queues κ α where
  entries := pushEntry k a q.entries
  nodup := by
    rw [pushEntry_keys]
    split
    · exact q.nodup
    · rename_i hk
      rw [List.nodup_append]
      refine ⟨q.nodup, by simp, ?_⟩
      intro x hx y hy hxy
      rw [List.mem_singleton] at hy
      exact hk (hy ▸ hxy ▸ hx)

/-- Rewrite the queue of `k`, if it has one. -/
def adjust (q : Queues κ α) (k : κ) (f : List α → List α) : Queues κ α where
  entries := adjustEntry k f q.entries
  nodup := by
    rw [adjustEntry_keys]
    exact q.nodup

/-- Take the last element off the queue of `k`. -/
def popBack (q : Queues κ α) (k : κ) : Option (α × Queues κ α) :=
  (q.queue k).getLast?.map fun a => (a, q.adjust k List.dropLast)

/-! ## What they do to one queue -/

theorem queue_pushBack :
    (q.pushBack k a).queue k' = if k' = k then q.queue k ++ [a] else q.queue k' := by
  unfold queue pushBack
  simp only
  induction q.entries with
  | nil =>
    by_cases h : k' = k
    · simp [pushEntry, queueEntry, h]
    · have h' : k ≠ k' := fun hk => h hk.symm
      simp [pushEntry, queueEntry, h, h']
  | cons e es ih =>
    obtain ⟨k₁, l⟩ := e
    by_cases h₁ : k₁ = k
    · by_cases h : k' = k
      · simp [pushEntry, queueEntry, h₁, h]
      · have h' : k ≠ k' := fun hk => h hk.symm
        simp [pushEntry, queueEntry, h₁, h, h']
    · by_cases h : k₁ = k'
      · have h' : k' ≠ k := fun hk => h₁ (h.trans hk)
        simp [pushEntry, queueEntry, h, h']
      · rw [pushEntry, if_neg h₁, queueEntry, if_neg h, ih]
        simp [queueEntry, h₁, h]

/-- `adjust` with a function that leaves the empty queue empty. -/
theorem queue_adjust {f : List α → List α} (hf : f [] = []) :
    (q.adjust k f).queue k' = if k' = k then f (q.queue k) else q.queue k' := by
  unfold queue adjust
  simp only
  induction q.entries with
  | nil => by_cases h : k' = k <;> simp [adjustEntry, queueEntry, h, hf]
  | cons e es ih =>
    obtain ⟨k₁, l⟩ := e
    by_cases h₁ : k₁ = k
    · by_cases h : k' = k
      · simp [adjustEntry, queueEntry, h₁, h]
      · have h' : k ≠ k' := fun hk => h hk.symm
        simp [adjustEntry, queueEntry, h₁, h, h']
    · by_cases h : k₁ = k'
      · have h' : k' ≠ k := fun hk => h₁ (h.trans hk)
        simp [adjustEntry, queueEntry, h, h']
      · rw [adjustEntry, if_neg h₁, queueEntry, if_neg h, ih]
        simp [queueEntry, h₁, h]

theorem queue_retain (p : α → Bool) : (q.retain p).queue k = (q.queue k).filter p := by
  unfold queue retain
  simp only
  induction q.entries with
  | nil => simp [queueEntry]
  | cons e es ih =>
    obtain ⟨k₁, l⟩ := e
    by_cases h : k₁ = k
    · simp [queueEntry, h]
    · simp [queueEntry, h, ih]

/-- `popBack` takes the last element of the queue of `k` and leaves the other
queues alone. -/
theorem popBack_spec (h : q.popBack k = some (a, q')) :
    q.queue k = q'.queue k ++ [a] ∧ ∀ k', k' ≠ k → q'.queue k' = q.queue k' := by
  unfold popBack at h
  simp only [Option.map_eq_some_iff, Prod.mk.injEq] at h
  obtain ⟨b, hb, rfl, rfl⟩ := h
  refine ⟨?_, ?_⟩
  · rw [queue_adjust rfl, if_pos rfl]
    exact (List.dropLast_append_getLast? b hb).symm
  · intro k' hk'
    rw [queue_adjust rfl, if_neg hk']

/-- An element that is put back where it was taken from leaves no trace. -/
theorem pushBack_popBack (h : q.popBack k = some (a, q')) : q'.pushBack k a = q := by
  unfold popBack at h
  simp only [Option.map_eq_some_iff, Prod.mk.injEq] at h
  obtain ⟨b, hb, rfl, rfl⟩ := h
  ext1
  unfold queue at hb
  unfold pushBack adjust
  simp only
  revert hb
  induction q.entries with
  | nil => simp [queueEntry]
  | cons e es ih =>
    obtain ⟨k₁, l⟩ := e
    intro hb
    by_cases h : k₁ = k
    · rw [queueEntry, if_pos h] at hb
      rw [adjustEntry, if_pos h, pushEntry, if_pos h, List.dropLast_append_getLast? b hb]
    · rw [queueEntry, if_neg h] at hb
      rw [adjustEntry, if_neg h, pushEntry, if_neg h, ih hb]

/-- `removeFirst` takes its element out of one queue and leaves the others alone. -/
theorem queue_removeFirst (h : q.removeFirst p = some (a, q')) :
    ∃ k, a ∈ q.queue k ∧ q'.queue k = (q.queue k).eraseP p ∧
      ∀ k', k' ≠ k → q'.queue k' = q.queue k' := by
  obtain ⟨xs, k, l, ys, hes, hl, hes'⟩ := removeEntry_split (removeFirst_entries h)
  have hq : q.queue k = l := queueEntry_of_mem (by simp [hes]) q.nodup
  have hq' : q'.queue k = l.eraseP p := queueEntry_of_mem (by simp [hes']) q'.nodup
  refine ⟨k, hq ▸ List.mem_of_find?_eq_some hl, hq ▸ hq', ?_⟩
  intro k' hk'
  rw [queue, queue, hes, hes']
  exact queueEntry_replace _ _ hk'.symm

/-! ## What they do to the elements -/

/-- The elements with the queue of `k` set apart. -/
theorem all_adjust (f : List α → List α) (hf : f [] = []) :
    ∃ xs ys, q.all = xs ++ q.queue k ++ ys ∧
      (q.adjust k f).all = xs ++ f (q.queue k) ++ ys := by
  unfold all queue adjust
  simp only
  induction q.entries with
  | nil => exact ⟨[], [], by simp [queueEntry], by simp [adjustEntry, queueEntry, hf]⟩
  | cons e es ih =>
    obtain ⟨k₁, l⟩ := e
    by_cases h : k₁ = k
    · exact ⟨[], (es.map Prod.snd).flatten, by simp [queueEntry, h],
        by simp [adjustEntry, queueEntry, h]⟩
    · obtain ⟨xs, ys, h₁, h₂⟩ := ih
      refine ⟨l ++ xs, ys, ?_, ?_⟩
      · simp [queueEntry, h, h₁]
      · simp [adjustEntry, queueEntry, h, h₂]

theorem mem_all_of_mem_queue (h : a ∈ q.queue k) : a ∈ q.all := by
  obtain ⟨xs, ys, hall, -⟩ := all_adjust (q := q) (k := k) id rfl
  rw [hall]
  simp [h]

theorem mem_all_iff : a ∈ q.all ↔ ∃ k, a ∈ q.queue k := by
  refine ⟨?_, fun ⟨k, hk⟩ => mem_all_of_mem_queue hk⟩
  intro h
  unfold all at h
  rw [List.mem_flatten] at h
  obtain ⟨l, hl, ha⟩ := h
  rw [List.mem_map] at hl
  obtain ⟨⟨k, l'⟩, he, rfl⟩ := hl
  refine ⟨k, ?_⟩
  unfold queue
  rw [queueEntry_of_mem he q.nodup]
  exact ha

theorem all_pushBack_perm : (q.pushBack k a).all.Perm (a :: q.all) := by
  unfold all pushBack
  simp only
  induction q.entries with
  | nil => simp [pushEntry]
  | cons e es ih =>
    obtain ⟨k₁, l⟩ := e
    by_cases h : k₁ = k
    · simp only [pushEntry, h, if_true, List.map_cons, List.flatten_cons, List.append_assoc]
      exact List.perm_middle
    · simp only [pushEntry, h, if_false, List.map_cons, List.flatten_cons]
      exact (ih.append_left l).trans List.perm_middle

theorem all_popBack_perm (h : q.popBack k = some (a, q')) : q.all.Perm (a :: q'.all) := by
  unfold popBack at h
  simp only [Option.map_eq_some_iff, Prod.mk.injEq] at h
  obtain ⟨b, hb, rfl, rfl⟩ := h
  obtain ⟨xs, ys, h₁, h₂⟩ := all_adjust (q := q) (k := k) List.dropLast rfl
  rw [h₁, h₂, ← List.dropLast_append_getLast? b hb, List.dropLast_concat]
  simp only [List.append_assoc, List.cons_append, List.nil_append]
  rw [← List.append_assoc, ← List.append_assoc]
  exact List.perm_middle

theorem mem_of_popBack (h : q.popBack k = some (a, q')) : a ∈ q.queue k := by
  rw [(popBack_spec h).1]
  simp

/-! ## Queues that only lose elements -/

theorem queueEntry_perm (h : es.Perm es') (hnd : (es.map Prod.fst).Nodup) :
    queueEntry k es = queueEntry k es' := by
  have hnd' := (h.map Prod.fst).nodup_iff.mp hnd
  by_cases hk : k ∈ es.map Prod.fst
  · obtain ⟨⟨k, l⟩, he, rfl⟩ := List.mem_map.mp hk
    rw [queueEntry_of_mem he hnd, queueEntry_of_mem (h.mem_iff.mp he) hnd']
  · have hk' : k ∉ es'.map Prod.fst := fun h' => hk ((h.map Prod.fst).mem_iff.mpr h')
    rw [queueEntry_of_not_mem hk, queueEntry_of_not_mem hk']

/-- `q'` is `q` with elements taken out, visited in any order of the keys. -/
structure Shrinks (q q' : Queues κ α) : Prop where
  all : q'.all.Subperm q.all
  queue : ∀ k, (q'.queue k).Sublist (q.queue k)

theorem Shrinks.refl (q : Queues κ α) : q.Shrinks q := ⟨.refl _, fun _ => .refl _⟩

theorem Rehashed.shrinks (h : q.Rehashed q') : q.Shrinks q' := by
  refine ⟨h.all_perm.symm.subperm, fun k => ?_⟩
  unfold queue
  rw [queueEntry_perm h q.nodup]

theorem shrinks_retain (p : α → Bool) : q.Shrinks (q.retain p) := by
  refine ⟨?_, fun k => ?_⟩
  · rw [all_retain]
    exact List.filter_sublist.subperm
  · rw [queue_retain]
    exact List.filter_sublist

theorem shrinks_adjust {f : List α → List α} (hf : ∀ l, (f l).Sublist l) :
    q.Shrinks (q.adjust k f) := by
  have hnil : f [] = [] := List.sublist_nil.mp (hf [])
  refine ⟨?_, fun k' => ?_⟩
  · obtain ⟨xs, ys, hall, hall'⟩ := all_adjust (q := q) (k := k) f hnil
    rw [hall, hall']
    exact (((List.Sublist.refl xs).append (hf _)).append (List.Sublist.refl ys)).subperm
  · rw [queue_adjust hnil]
    split
    · rename_i hk
      rw [hk]
      exact hf _
    · exact .refl _

theorem shrinks_popBack (h : q.popBack k = some (a, q')) : q.Shrinks q' := by
  obtain ⟨b, -, hb⟩ := Option.map_eq_some_iff.mp h
  rw [← (Prod.mk.inj hb).2]
  exact shrinks_adjust fun l => List.dropLast_sublist l

theorem shrinks_removeFirst (h : q.removeFirst p = some (a, q')) : q.Shrinks q' := by
  refine ⟨?_, fun k' => ?_⟩
  · exact (List.sublist_cons_self a _).subperm.trans (removeFirst_spec h).2.symm.subperm
  · obtain ⟨k, -, herase, hother⟩ := queue_removeFirst h
    by_cases hk : k' = k
    · rw [hk, herase]
      exact List.eraseP_sublist
    · rw [hother k' hk]

theorem size_pushBack : (q.pushBack k a).size = q.size + 1 := by
  rw [size_eq, size_eq, all_pushBack_perm.length_eq, List.length_cons]

theorem Shrinks.size_le (h : q.Shrinks q') : q'.size ≤ q.size := by
  rw [size_eq, size_eq]
  exact h.all.length_le

/-- An element that is no longer there has left room. -/
theorem Shrinks.size_lt (h : q.Shrinks q') (ha : a ∈ q.all) (ha' : a ∉ q'.all) :
    q'.size < q.size := by
  rw [size_eq, size_eq]
  by_contra hle
  exact ha' ((h.all.perm_of_length_le (Nat.le_of_not_lt hle)).mem_iff.mpr ha)

end Queues

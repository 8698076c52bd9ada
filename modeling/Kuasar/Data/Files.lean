import Mathlib.Data.List.Nodup

/-!
# Data.Files — files that are renamed and renamed back

Files by path. `rename` moves a file over whatever is at the target and fails when there
is no file to move. `Renames f ms g` says that all renames of `ms`, in this order, lead
from `f` to `g`.

`renames_back`: when the targets are apart from the sources, renaming back in the order
of the renames, if all of it succeeds, leaves every path outside the targets as it was.
Two renames to one target are not excluded beforehand: renaming the second one back
would fail.
-/

universe u v

abbrev Files (π : Type u) (α : Type v) := π → Option α

namespace Files

variable {π : Type u} {α : Type v}

/-- No source is a target. -/
def Apart (ms : List (π × π)) : Prop := ∀ m ∈ ms, ∀ n ∈ ms, m.1 ≠ n.2

variable {m : π × π} {ms : List (π × π)}

theorem Apart.tail (hap : Apart (m :: ms)) : Apart ms := fun a ha b hb =>
  hap a (List.mem_cons_of_mem _ ha) b (List.mem_cons_of_mem _ hb)

theorem Apart.swap (hap : Apart ms) : Apart (ms.map Prod.swap) := by
  intro x hx y hy
  obtain ⟨a, ha, rfl⟩ := List.mem_map.mp hx
  obtain ⟨b, hb, rfl⟩ := List.mem_map.mp hy
  exact fun heq => hap b hb a ha heq.symm

variable [DecidableEq π]

/-- The file at `p` is now `a`. -/
def write (f : Files π α) (p : π) (a : α) : Files π α := Function.update f p (some a)

/-- The file at `p` is gone. -/
def remove (f : Files π α) (p : π) : Files π α := Function.update f p none

/-- Move the file at `p` to `q`. -/
def rename (f : Files π α) (p q : π) : Option (Files π α) :=
  match f p with
  | none => none
  | some a => some ((f.remove p).write q a)

/-- The renames from sources to targets lead from `f` to `g`. -/
inductive Renames : Files π α → List (π × π) → Files π α → Prop where
  | nil {f} : Renames f [] f
  | cons {f g h m ms} (hm : f.rename m.1 m.2 = some g)
      (hms : Renames g ms h) : Renames f (m :: ms) h

variable {f g h : Files π α} {p q : π}

/-- A file after a write is the one that was written or was there. -/
theorem write_eq_some {a b : α} (hw : f.write p a q = some b) :
    (q = p ∧ b = a) ∨ (q ≠ p ∧ f q = some b) := by
  by_cases hqp : q = p
  · subst hqp
    exact .inl ⟨rfl, by simpa [write, eq_comm] using hw⟩
  · exact .inr ⟨hqp, by simpa [write, hqp] using hw⟩

theorem remove_eq_some {b : α} (hr : f.remove p q = some b) : q ≠ p ∧ f q = some b := by
  by_cases hqp : q = p
  · subst hqp
    simp [remove] at hr
  · exact ⟨hqp, by simpa [remove, hqp] using hr⟩

/-- What a rename does: the target has what the source had, the source is empty, and
nothing else changes. -/
theorem rename_spec (hm : f.rename p q = some g) :
    f p ≠ none ∧ g q = f p ∧ (p ≠ q → g p = none) ∧ ∀ r, r ≠ p → r ≠ q → g r = f r := by
  unfold rename at hm
  split at hm
  · simp at hm
  · rename_i a ha
    simp only [Option.some.injEq] at hm
    subst hm
    refine ⟨by simp [ha], by simp [write, ha], ?_, ?_⟩
    · intro hpq
      simp [write, remove, hpq]
    · intro r hrp hrq
      simp [write, remove, hrp, hrq]

theorem Renames.snoc (hr : Renames f ms g) (hm : g.rename m.1 m.2 = some h) :
    Renames f (ms ++ [m]) h := by
  induction hr with
  | nil => exact .cons hm .nil
  | cons hfirst _ ih => exact .cons hfirst (ih hm)

/-- Paths that are neither source nor target stay as they are. -/
theorem Renames.untouched (hr : Renames f ms g) (hsrc : p ∉ ms.map Prod.fst)
    (hdst : p ∉ ms.map Prod.snd) : g p = f p := by
  induction hr with
  | nil => rfl
  | cons hm _ ih =>
    simp only [List.map_cons, List.mem_cons, not_or] at hsrc hdst
    rw [ih hsrc.2 hdst.2]
    exact (rename_spec hm).2.2.2 p hsrc.1 hdst.1

/-- A path without a file gets none, unless it is a target. -/
theorem Renames.none_of_none (hr : Renames f ms g) (hp : f p = none) (hdst : p ∉ ms.map Prod.snd) :
    g p = none := by
  induction hr with
  | nil => exact hp
  | cons hm _ ih =>
    simp only [List.map_cons, List.mem_cons, not_or] at hdst
    obtain ⟨hsome, -, -, hrest⟩ := rename_spec hm
    refine ih ?_ hdst.2
    rw [hrest p (fun heq => hsome (heq ▸ hp)) hdst.1]
    exact hp

section

variable (hr : Renames f ms g) (hap : Apart ms)

include hr hap

theorem Renames.source_some (hmem : m ∈ ms) : f m.1 ≠ none := by
  intro hnone
  induction hr with
  | nil => simp at hmem
  | @cons _ _ _ n ms hm _ ih =>
    obtain ⟨hsome, -, -, hrest⟩ := rename_spec hm
    rcases List.mem_cons.mp hmem with rfl | htail
    · exact hsome hnone
    · refine ih hap.tail htail ?_
      rw [hrest m.1 (fun heq => hsome (heq ▸ hnone)) (hap m hmem n List.mem_cons_self)]
      exact hnone

theorem Renames.source_none (hmem : m ∈ ms) : g m.1 = none := by
  induction hr with
  | nil => simp at hmem
  | @cons _ _ _ n ms hm hms ih =>
    rcases List.mem_cons.mp hmem with rfl | htail
    · refine hms.none_of_none ((rename_spec hm).2.2.1 (hap m hmem m hmem)) ?_
      intro hdst
      obtain ⟨b, hb, heq⟩ := List.mem_map.mp hdst
      exact hap m hmem b (List.mem_cons_of_mem _ hb) heq.symm
    · exact ih hap.tail htail

theorem Renames.sources_nodup : (ms.map Prod.fst).Nodup := by
  induction hr with
  | nil => simp
  | @cons _ _ _ n ms hm hms ih =>
    rw [List.map_cons, List.nodup_cons]
    refine ⟨?_, ih hap.tail⟩
    -- the first rename empties its source, so a second one would fail
    intro hmem
    obtain ⟨b, hb, heq⟩ := List.mem_map.mp hmem
    have hempty := (rename_spec hm).2.2.1 (hap n List.mem_cons_self n List.mem_cons_self)
    exact hms.source_some hap.tail hb (by rw [heq]; exact hempty)

/-- Distinct targets get what their sources had. -/
theorem Renames.target (hdst : (ms.map Prod.snd).Nodup) (hmem : m ∈ ms) : g m.2 = f m.1 := by
  induction hr with
  | nil => simp at hmem
  | @cons f₀ _ _ n ms hm hms ih =>
    have hsrc := (Renames.cons hm hms).sources_nodup hap
    rw [List.map_cons, List.nodup_cons] at hdst hsrc
    obtain ⟨-, hto, -, hrest⟩ := rename_spec hm
    rcases List.mem_cons.mp hmem with rfl | htail
    · rw [← hto]
      refine hms.untouched ?_ hdst.1
      intro hback
      obtain ⟨b, hb, heq⟩ := List.mem_map.mp hback
      exact hap b (List.mem_cons_of_mem _ hb) m hmem heq
    · rw [ih hap.tail hdst.2 htail]
      refine hrest m.1 ?_ (hap m hmem n List.mem_cons_self)
      intro heq
      exact hsrc.1 (heq ▸ List.mem_map_of_mem htail)

end

/-- Renaming back, in the order of the renames, restores every path that is no target. -/
theorem renames_back (hr : Renames f ms g) (hb : Renames g (ms.map Prod.swap) h) (hap : Apart ms)
    (hp : p ∉ ms.map Prod.snd) : h p = f p := by
  have hfst : (ms.map Prod.swap).map Prod.fst = ms.map Prod.snd := by simp [Function.comp_def]
  have hsnd : (ms.map Prod.swap).map Prod.snd = ms.map Prod.fst := by simp [Function.comp_def]
  by_cases hsrc : p ∈ ms.map Prod.fst
  · obtain ⟨m, hm, rfl⟩ := List.mem_map.mp hsrc
    have hnd : (ms.map Prod.snd).Nodup := hfst ▸ hb.sources_nodup hap.swap
    calc h m.1 = g m.2 :=
          hb.target hap.swap (hsnd ▸ hr.sources_nodup hap) (List.mem_map_of_mem hm)
      _ = f m.1 := hr.target hap hnd hm
  · rw [hb.untouched (hfst ▸ hp) (hsnd ▸ hsrc), hr.untouched hsrc hp]

end Files

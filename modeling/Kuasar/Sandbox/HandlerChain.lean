import Mathlib.Data.List.Basic
import Kuasar.Data.Chain

/-!
# Sandbox.HandlerChain — the loop that runs the handlers of a container

`HandlerChain::handle` runs its handlers in order. It remembers the index of the handler that
finished last, and on an error walks over the handlers from the end and rolls back those whose
position in that walk has passed the index. The index starts at zero, so that before the first
handler has finished it names the first handler all the same.

`failed_handle_rolls_back`: the handlers before the one that failed are rolled back, and no
others, if and only if the failed one is not the first.
-/

namespace Kuasar.HandlerChain

open Chain

variable {σ ε : Type*}

/-- How the loop over the handlers ended. -/
structure Pass (σ ε : Type*) where
  state : σ
  finishedIndex : ℕ
  err : Option ε

/-- The loop of `handle`, at the handler of index `i`. -/
def handleLoop (i finishedIndex : ℕ) : List (Handler σ ε) → σ → Pass σ ε
  | [], s => ⟨s, finishedIndex, none⟩
  | h :: hs, s =>
    match h.handle s with
    | (s, none) => handleLoop (i + 1) i hs s
    | (s, some e) => ⟨s, finishedIndex, some e⟩

/-- The handlers that are rolled back after an error, in the order of the rollback. -/
def rolledBack (handlers : List (Handler σ ε)) (finishedIndex : ℕ) : List (Handler σ ε) :=
  (handlers.reverse.zipIdx.filter fun p =>
    decide (handlers.length - 1 - finishedIndex ≤ p.2)).map Prod.fst

/-- `HandlerChain::handle`. A rollback that fails is logged. -/
def handle (handlers : List (Handler σ ε)) (s : σ) : σ × Option ε :=
  let pass := handleLoop 0 0 handlers s
  match pass.err with
  | none => (pass.state, none)
  | some e => (Chain.rollback (rolledBack handlers pass.finishedIndex) pass.state, some e)

/-- The handlers before `k` finish, from `s` to `s₁`, and the one at `k` then fails. -/
def FailsAt (handlers : List (Handler σ ε)) (k : ℕ) (s s₁ s₂ : σ) (e : ε) : Prop :=
  Chain.forward (handlers.take k) s = some s₁ ∧
    ∃ h, handlers[k]? = some h ∧ h.handle s₁ = (s₂, some e)

/-! ## The walk from the end -/

theorem filter_zipIdx (m k : ℕ) (l : List (Handler σ ε)) :
    ((l.zipIdx k).filter fun p => decide (m ≤ p.2)).map Prod.fst = l.drop (m - k) := by
  induction l generalizing k with
  | nil => simp
  | cons h l ih =>
    rw [List.zipIdx_cons]
    by_cases hm : m ≤ k
    · have hzero : m - (k + 1) = 0 := by omega
      rw [List.filter_cons_of_pos (by simpa using hm), List.map_cons, ih, hzero,
        Nat.sub_eq_zero_of_le hm, List.drop_zero, List.drop_zero]
    · have hsucc : m - k = m - (k + 1) + 1 := by omega
      rw [List.filter_cons_of_neg (by simpa using hm), ih, hsucc, List.drop_succ_cons]

variable {handlers : List (Handler σ ε)} {s : σ}

/-- The walk meets the handlers up to the index, the last of them first. -/
theorem rolledBack_eq {n : ℕ} (hn : n < handlers.length) :
    rolledBack handlers n = (handlers.take (n + 1)).reverse := by
  have hlen : handlers.length - (handlers.length - 1 - n - 0) = n + 1 := by omega
  rw [rolledBack, filter_zipIdx, List.drop_reverse, hlen]

/-! ## The loop -/

theorem handleLoop_ok {t : σ} (i f : ℕ) (h : forward handlers s = some t) :
    (handleLoop i f handlers s).state = t ∧ (handleLoop i f handlers s).err = none := by
  induction handlers generalizing i f s with
  | nil =>
    cases h
    exact ⟨rfl, rfl⟩
  | cons x xs ih =>
    obtain ⟨s', hx, hxs⟩ := forward_cons.mp h
    simp only [handleLoop, hx]
    exact ih (i + 1) i hxs

/-- The loop ends at the handler that fails, with the index of the one before it. -/
theorem handleLoop_error {pre post : List (Handler σ ε)} {x : Handler σ ε} {s₁ s₂ : σ} {e : ε}
    (i f : ℕ) (hpre : forward pre s = some s₁) (hx : x.handle s₁ = (s₂, some e)) :
    handleLoop i f (pre ++ x :: post) s =
      ⟨s₂, if pre = [] then f else i + pre.length - 1, some e⟩ := by
  induction pre generalizing i f s with
  | nil =>
    cases hpre
    simp [handleLoop, hx]
  | cons y pre ih =>
    obtain ⟨s', hy, hrest⟩ := forward_cons.mp hpre
    simp only [List.cons_append, handleLoop, hy]
    rw [ih (i + 1) i hrest]
    cases pre with
    | nil => simp
    | cons z pre =>
      have hindex : i + 1 + (z :: pre).length - 1 = i + (y :: z :: pre).length - 1 := by
        simp only [List.length_cons]
        omega
      simp only [reduceCtorEq, if_false, hindex]

/-- What the loop and the walk come to is the chain that the handlers of a container run in. -/
theorem handle_eq_run (handlers : List (Handler σ ε)) (s : σ) :
    handle handlers s = run handlers s := by
  rcases hrun : run handlers s with ⟨t, _ | e⟩
  · obtain ⟨hstate, herr⟩ := handleLoop_ok 0 0 (run_ok_iff.mp hrun)
    simp only [handle, herr, hstate]
  · obtain ⟨pre, x, post, s₁, s₂, rfl, hpre, hx, rfl⟩ := run_error hrun
    simp only [handle, handleLoop_error 0 0 hpre hx]
    cases pre with
    | nil =>
      rw [if_pos rfl, rolledBack_eq (by simp)]
      simp [finished]
    | cons y pre =>
      have hlast : 0 + (y :: pre).length - 1 = pre.length := by simp
      have hlt : pre.length < (y :: pre ++ x :: post).length := by
        rw [List.length_append, List.length_cons]
        omega
      rw [if_neg (by simp), hlast, rolledBack_eq hlt, finished_of_ne_nil (by simp)]
      simp

/-! ## What a failure rolls back -/

theorem FailsAt.split {k : ℕ} {s₁ s₂ : σ} {e : ε} (h : FailsAt handlers k s s₁ s₂ e) :
    ∃ x post, handlers = handlers.take k ++ x :: post ∧ (handlers.take k).length = k ∧
      x.handle s₁ = (s₂, some e) := by
  obtain ⟨-, x, hx, hfail⟩ := h
  have hk : k < handlers.length := (List.getElem?_eq_some_iff.mp hx).1
  refine ⟨x, handlers.drop (k + 1), ?_, by simp; omega, hfail⟩
  have hget : handlers[k] = x := (List.getElem?_eq_some_iff.mp hx).2
  rw [← hget, List.getElem_cons_drop, List.take_append_drop]

/-- A chain whose handler `k` fails returns its error. The handlers before `k` are rolled back,
each once and the last of them first, if and only if `k` is not the first: the first handler is
rolled back when it fails itself. -/
theorem failed_handle_rolls_back (handlers : List (Handler σ ε)) (k : ℕ) (s s₁ s₂ : σ) (e : ε)
    (h : FailsAt handlers k s s₁ s₂ e) :
    ∃ rolled, handle handlers s = (rollback rolled s₂, some e) ∧
      rolled = rolledBack handlers (handleLoop 0 0 handlers s).finishedIndex ∧
      (rolled = (handlers.take k).reverse ↔ 0 < k) ∧
      (k = 0 → ∃ first, handlers.head? = some first ∧ rolled = [first]) := by
  obtain ⟨x, post, hsplit, hlen, hx⟩ := h.split
  have hloop : handleLoop 0 0 (handlers.take k ++ x :: post) s = _ :=
    handleLoop_error 0 0 h.1 hx
  rw [← hsplit] at hloop
  refine ⟨_, by simp only [handle, hloop], rfl, ?_⟩
  have hk : k < handlers.length := by
    rw [hsplit, List.length_append, hlen, List.length_cons]
    omega
  rw [hloop]
  rcases Nat.eq_zero_or_pos k with rfl | hpos
  · -- nothing has finished, and the index is zero as it was at the start
    have hone : rolledBack handlers 0 = [x] := by
      rw [rolledBack_eq hk, hsplit]
      simp
    simp only [List.take_zero, if_true, hone]
    refine ⟨by simp, ?_⟩
    intro _
    exact ⟨x, by rw [hsplit]; simp, rfl⟩
  · have hne : handlers.take k ≠ [] := by
      intro hnil
      rw [hnil] at hlen
      exact absurd hlen (by simp; omega)
    have hindex : 0 + k - 1 + 1 = k := by omega
    simp only [if_neg hne, hlen]
    rw [rolledBack_eq (by omega), hindex]
    exact ⟨iff_of_true rfl hpos, fun hzero => absurd hzero (by omega)⟩

/-- A handler that leaves a mark when it is rolled back. -/
def marked (name : String) (fails : Bool) : Handler (List String) String where
  handle := fun s => (s, if fails then some name else none)
  rollback := fun s => s ++ [name]

theorem failed_handle_rolls_back_third :
    ∃ rolled, handle [marked "a" false, marked "b" false, marked "c" true] [] =
      (rollback rolled [], some "c") ∧
      rolled = ([marked "a" false, marked "b" false, marked "c" true].take 2).reverse := by
  obtain ⟨rolled, hrun, -, hiff, -⟩ := failed_handle_rolls_back
    [marked "a" false, marked "b" false, marked "c" true] 2 [] [] [] "c"
    ⟨rfl, marked "c" true, rfl, rfl⟩
  exact ⟨rolled, hrun, hiff.mpr (by decide)⟩

/-- A chain whose first handler fails rolls that handler back. -/
theorem first_failed_handler_rolled_back :
    FailsAt [marked "a" true, marked "b" false] 0 [] [] [] "a" ∧
      handle [marked "a" true, marked "b" false] [] = (["a"], some "a") :=
  ⟨⟨rfl, marked "a" true, rfl, rfl⟩, by decide⟩

end Kuasar.HandlerChain

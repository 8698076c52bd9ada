import Mathlib.Order.WellFoundedSet
import Kuasar.Tla.Tasks

/-!
# Tla.Locks — tasks that take locks in an order

A program is seen through the locks it takes: blocks run under a lock, one after
the other, one of several, any number of times. What decides between the
branches is left open, and any part of a program may be left early, so a run of
the machine below is any run of the program whatever its data.

Tasks run interleaved. A task that asks for a lock queues up, and it waits for a
task that holds the lock, or has asked for it before, in a conflicting mode: a
queued writer blocks the readers that come after it. The rule of this module is
that tasks which take their locks in the order of a rank never wait in a circle
(`LockSys.no_cycle`).
-/

namespace Tla

universe u

/-- How a lock is taken: along with other readers, or alone. A mutex is a lock
that is only ever taken for writing. -/
inductive Mode where
  | read
  | write
deriving DecidableEq, Repr

/-- Two modes in which a lock is not held at the same time. -/
def Mode.Conflicts (m m' : Mode) : Prop := m = .write ∨ m' = .write

/-- A program, as far as its locks go. -/
inductive Code (L : Type u) where
  | skip
  | locked (l : L) (m : Mode) (body : Code L)
  | seq (c d : Code L)
  | either (c d : Code L)
  | loop (body : Code L)
  | pick (body : ℕ → Code L)

variable {L : Type u}

namespace Code

def mutex (l : L) (body : Code L) : Code L := locked l .write body

/-- A mutex taken and given back. -/
def touch (l : L) : Code L := mutex l skip

/-- One program after the other. -/
def block : List (Code L) → Code L
  | [] => skip
  | c :: cs => seq c (block cs)

/-- One of several programs. -/
def oneOf : List (Code L) → Code L
  | [] => skip
  | c :: cs => either c (oneOf cs)

/-- Every lock is taken at a rank of `n` or more, and above the locks that are
held where it is taken. -/
def Above (rank : L → ℕ) : ℕ → Code L → Prop
  | _, skip => True
  | n, locked l _ body => n ≤ rank l ∧ Above rank (rank l + 1) body
  | n, seq c d => Above rank n c ∧ Above rank n d
  | n, either c d => Above rank n c ∧ Above rank n d
  | n, loop body => Above rank n body
  | n, pick body => ∀ i, Above rank n (body i)

variable {rank : L → ℕ} {n : ℕ}

@[simp] theorem above_skip : Above rank n skip := trivial

@[simp] theorem above_locked {l : L} {m : Mode} {body : Code L} :
    Above rank n (locked l m body) ↔ n ≤ rank l ∧ Above rank (rank l + 1) body :=
  Iff.rfl

@[simp] theorem above_loop {body : Code L} : Above rank n (loop body) ↔ Above rank n body :=
  Iff.rfl

@[simp] theorem above_pick {body : ℕ → Code L} :
    Above rank n (pick body) ↔ ∀ i, Above rank n (body i) :=
  Iff.rfl

@[simp] theorem above_mutex {l : L} {body : Code L} :
    Above rank n (mutex l body) ↔ n ≤ rank l ∧ Above rank (rank l + 1) body :=
  Iff.rfl

@[simp] theorem above_touch {l : L} : Above rank n (touch l) ↔ n ≤ rank l := by
  simp [touch]

@[simp] theorem above_block {cs : List (Code L)} :
    Above rank n (block cs) ↔ ∀ c ∈ cs, Above rank n c := by
  induction cs with
  | nil => simp [block]
  | cons c cs ih => simp [block, Above, ih]

@[simp] theorem above_oneOf {cs : List (Code L)} :
    Above rank n (oneOf cs) ↔ ∀ c ∈ cs, Above rank n c := by
  induction cs with
  | nil => simp [oneOf]
  | cons c cs ih => simp [oneOf, Above, ih]

theorem Above.mono {c : Code L} {k n : ℕ} (h : Above rank n c) (hk : k ≤ n) :
    Above rank k c := by
  induction c with
  | skip => trivial
  | locked l m body => exact ⟨hk.trans h.1, h.2⟩
  | seq c d ihc ihd | either c d ihc ihd => exact ⟨ihc h.1, ihd h.2⟩
  | loop body ih => exact ih h
  | pick body ih => exact fun i => ih i (h i)

end Code

/-- What a task still has to do: run a program, or give a lock back. -/
inductive Item (L : Type u) where
  | run (c : Code L)
  | release (l : L) (m : Mode)

/-- The steps a task takes by itself. A program may be left at any point: by an
early return, on an error, or because its task was cancelled. -/
inductive Moves : List (Item L) → List (Item L) → Prop where
  | leave (c : Code L) (k : List (Item L)) : Moves (.run c :: k) k
  | seq (c d : Code L) (k : List (Item L)) : Moves (.run (.seq c d) :: k) (.run c :: .run d :: k)
  | left (c d : Code L) (k : List (Item L)) : Moves (.run (.either c d) :: k) (.run c :: k)
  | right (c d : Code L) (k : List (Item L)) : Moves (.run (.either c d) :: k) (.run d :: k)
  | again (body : Code L) (k : List (Item L)) :
      Moves (.run (.loop body) :: k) (.run body :: .run (.loop body) :: k)
  | pick (body : ℕ → Code L) (n : ℕ) (k : List (Item L)) :
      Moves (.run (.pick body) :: k) (.run (body n) :: k)
  | release (l : L) (m : Mode) (k : List (Item L)) : Moves (.release l m :: k) k

variable (rank : L → ℕ)

/-- One more than the rank of the lock that was taken last. -/
def floor : List (Item L) → ℕ
  | [] => 0
  | .run _ :: k => floor k
  | .release l _ :: _ => rank l + 1

/-- The locks a task holds were taken in the order of their ranks, and the ones
it may still ask for come after them. -/
def Ranked : List (Item L) → Prop
  | [] => True
  | .run c :: k => c.Above rank (floor rank k) ∧ Ranked k
  | .release l _ :: k => floor rank k ≤ rank l ∧ Ranked k

variable {rank} {l : L} {m : Mode} {c : Code L} {k k' : List (Item L)}

/-- The locks a task holds are below its floor. -/
theorem Ranked.lt_floor (h : Ranked rank k) (hl : Item.release l m ∈ k) :
    rank l < floor rank k := by
  induction k with
  | nil => simp at hl
  | cons it k ih =>
    rcases it with c | ⟨l', m'⟩
    · exact ih h.2 (by simpa using hl)
    · rcases List.mem_cons.mp hl with heq | hl
      · cases heq
        exact Nat.lt_succ_self (rank l)
      · exact (ih h.2 hl).trans_le (h.1.trans (Nat.le_succ (rank l')))

/-- A task stays ranked over its own steps. -/
theorem Ranked.moves (h : Ranked rank k) (hm : Moves k k') : Ranked rank k' := by
  cases hm with
  | leave c k | release l m k => exact h.2
  | seq c d k => exact ⟨h.1.1, h.1.2, h.2⟩
  | left c d k => exact ⟨h.1.1, h.2⟩
  | right c d k => exact ⟨h.1.2, h.2⟩
  | again body k => exact ⟨h.1, h.1, h.2⟩
  | pick body n k => exact ⟨h.1 n, h.2⟩

/-- A task stays ranked when it is given the lock it asks for. -/
theorem Ranked.grant (h : Ranked rank (.run (.locked l m c) :: k)) :
    Ranked rank (.run c :: .release l m :: k) :=
  ⟨h.1.2, h.1.1, h.2⟩

/-- The tasks with what each has to do, and those that wait for a lock, in the
order in which they asked. -/
structure LockSys (L : Type u) where
  tasks : List (List (Item L))
  queue : List ℕ

namespace LockSys

/-- Task `i` holds a lock. -/
def Holds (s : LockSys L) (i : ℕ) (l : L) (m : Mode) : Prop :=
  ∃ k, s.tasks[i]? = some k ∧ Item.release l m ∈ k

/-- Task `i` has asked for a lock. -/
def Wants (s : LockSys L) (i : ℕ) (l : L) (m : Mode) : Prop :=
  i ∈ s.queue ∧ ∃ c k, s.tasks[i]? = some (.run (.locked l m c) :: k)

/-- Task `i` has asked for some lock. -/
def Waiting (s : LockSys L) (i : ℕ) : Prop := ∃ l m, s.Wants i l m

/-- Task `i` waits for task `j`, which holds the lock that `i` has asked for, or
has asked for it before. -/
def Waits (s : LockSys L) (i j : ℕ) : Prop :=
  ∃ l m m', s.Wants i l m ∧ m.Conflicts m' ∧
    (s.Holds j l m' ∨ (s.Wants j l m' ∧ s.queue.idxOf j < s.queue.idxOf i))

/-- The tasks waiting for a lock form no circle. -/
def NoCycle (s : LockSys L) : Prop := ∀ i, ¬ Relation.TransGen s.Waits i i

variable {s : LockSys L} {i j : ℕ} {l' : L} {m' : Mode}

/-- Without circles, a waiting task is held up by one that waits for no waiting
task. -/
theorem NoCycle.exists_foremost (h : s.NoCycle) (hi : s.Waiting i) :
    ∃ j, s.Waiting j ∧ Relation.ReflTransGen s.Waits i j ∧
      ∀ k, s.Waits j k → ¬ s.Waiting k := by
  have hfin : {j | s.Waiting j}.Finite := by
    apply (List.finite_toSet s.queue).subset
    rintro j ⟨l, m, hj, -⟩
    exact hj
  have : IsStrictOrder ℕ (fun k j => Relation.TransGen s.Waits j k) := {
    irrefl := h
    trans := fun a b c hab hbc => hbc.trans hab }
  -- finitely many tasks wait, so the chain of waiting tasks from `i` on ends
  have hwf : {j | s.Waiting j}.WellFoundedOn (fun k j => Relation.TransGen s.Waits j k) :=
    hfin.wellFoundedOn
  apply hwf.induction hi
  intro i hi ih
  by_cases hk : ∃ k, s.Waits i k ∧ s.Waiting k
  · rcases hk with ⟨k, hik, hk⟩
    rcases ih k hk (.single hik) with ⟨j, hj, hkj, hlast⟩
    exact ⟨j, hj, .head hik hkj, hlast⟩
  · exact ⟨i, hi, .refl, fun k hik hk' => hk ⟨k, hik, hk'⟩⟩

/-- No task has started. -/
def Init : StatePred (LockSys L) := fun s => s = ⟨[], []⟩

/-- One step: a program starts as a task of its own, a task asks for a lock or is
given the one it asked for, or it takes a step by itself. A task that leaves a
program while it waits also leaves the queue. -/
inductive Next (program : Code L → Prop) : Action (LockSys L) where
  | spawn {s : LockSys L} {c} (hc : program c) : Next program s ⟨s.tasks ++ [[.run c]], s.queue⟩
  | request {s : LockSys L} {i l m c k}
      (hi : s.tasks[i]? = some (.run (.locked l m c) :: k)) (hq : i ∉ s.queue) :
      Next program s ⟨s.tasks, s.queue ++ [i]⟩
  | grant {s : LockSys L} {i l m c k}
      (hi : s.tasks[i]? = some (.run (.locked l m c) :: k)) (hq : i ∈ s.queue)
      (hfree : ∀ j, ¬ s.Waits i j) :
      Next program s ⟨s.tasks.set i (.run c :: .release l m :: k), s.queue.erase i⟩
  | advance {s : LockSys L} {i k k'} (hi : s.tasks[i]? = some k)
      (hm : Moves k k') : Next program s ⟨s.tasks.set i k', s.queue.erase i⟩

variable {program : Code L → Prop}

def AllRanked (rank : L → ℕ) (s : LockSys L) : Prop := ∀ k ∈ s.tasks, Ranked rank k

/-- A task that moves to a ranked list of items leaves every task ranked. -/
theorem AllRanked.set (h : s.AllRanked rank) (i : ℕ) (hk : Ranked rank k) (queue : List ℕ) :
    AllRanked rank ⟨s.tasks.set i k, queue⟩ := by
  intro k' hk'
  rcases List.mem_or_eq_of_mem_set hk' with hmem | rfl
  · exact h k' hmem
  · exact hk

/-- One step of programs that take their locks in order keeps every task ranked. -/
theorem AllRanked.next (hp : ∀ c, program c → c.Above rank 0) {s' : LockSys L}
    (hn : Next program s s') (h : s.AllRanked rank) : s'.AllRanked rank := by
  cases hn with
  | @spawn _ c hc =>
    intro k hk
    rcases List.mem_append.mp hk with hk | hk
    · exact h k hk
    · rw [List.mem_singleton.mp hk]
      exact ⟨hp c hc, trivial⟩
  | request _ _ => exact h
  | grant hi _ _ => exact h.set _ (h _ (List.mem_of_getElem? hi)).grant _
  | advance hi hm => exact h.set _ ((h _ (List.mem_of_getElem? hi)).moves hm) _

/-- The rank of the lock that a task is about to ask for. -/
def wantedRank (rank : L → ℕ) (s : LockSys L) (i : ℕ) : ℕ :=
  match s.tasks[i]? with
  | some (.run (.locked l _ _) :: _) => rank l
  | _ => 0

theorem Wants.wantedRank_eq (rank : L → ℕ) (h : s.Wants i l m) : s.wantedRank rank i = rank l := by
  rcases h with ⟨-, c, k, hi⟩
  simp only [wantedRank, hi]

/-- Task `j` asks for a lock of higher rank than task `i` does, or for one of the
same rank and before it. -/
def Precedes (rank : L → ℕ) (s : LockSys L) (i j : ℕ) : Prop :=
  s.wantedRank rank i < s.wantedRank rank j ∨
    (s.wantedRank rank i = s.wantedRank rank j ∧ s.queue.idxOf j < s.queue.idxOf i)

theorem Precedes.trans {a b c : ℕ} (hab : s.Precedes rank a b) (hbc : s.Precedes rank b c) :
    s.Precedes rank a c := by
  unfold Precedes at *
  omega

theorem Precedes.irrefl {a : ℕ} : ¬ s.Precedes rank a a := by
  unfold Precedes
  omega

/-- A task that holds a lock asks for locks of higher rank only. -/
theorem Holds.lt_wanted (h : s.AllRanked rank) (hh : s.Holds j l m) (hw : s.Wants j l' m') :
    rank l < rank l' := by
  rcases hh with ⟨k, hk, hl⟩
  rcases hw with ⟨-, c, k', hk'⟩
  rw [hk] at hk'
  cases hk'
  have hr := h _ (List.mem_of_getElem? hk)
  have hl : Item.release l m ∈ k' := by simpa using hl
  exact (hr.2.lt_floor hl).trans_le hr.1.1

/-- A task waits for a waiting task only if that one precedes it. -/
theorem Waits.precedes (h : s.AllRanked rank) (hw : s.Waits i j) (hj : s.Wants j l' m') :
    s.Precedes rank i j := by
  rcases hw with ⟨l, m, n, hi, -, hh | ⟨hj', hlt⟩⟩
  · have hlt := hh.lt_wanted h hj
    rw [← hi.wantedRank_eq rank, ← hj.wantedRank_eq rank] at hlt
    exact Or.inl hlt
  · exact Or.inr ⟨(hi.wantedRank_eq rank).trans (hj'.wantedRank_eq rank).symm, hlt⟩

/-- The same along a chain of waiting tasks. -/
theorem precedes_of_waits (h : s.AllRanked rank) (hw : Relation.TransGen s.Waits i j)
    (hj : s.Wants j l' m') : s.Precedes rank i j := by
  induction hw generalizing l' m' with
  | single hw => exact hw.precedes h hj
  | tail _ hw ih =>
    -- the last task but one waits, so what precedes it is known
    have ⟨_, _, _, hwants, _⟩ := hw
    exact (ih hwants).trans (hw.precedes h hj)

/-- Tasks that take their locks in the order of a rank never wait in a circle. -/
theorem no_cycle (hp : ∀ c, program c → c.Above rank 0) (h : Reachable Init (Next program) s) :
    s.NoCycle := by
  have hr : s.AllRanked rank := by
    apply h.invariant
    · rintro s rfl k hk
      simp at hk
    · exact fun s s' hn => AllRanked.next hp hn
  intro i hi
  rcases Relation.TransGen.head'_iff.mp hi with ⟨j, ⟨_, _, _, hwants, _⟩, -⟩
  exact Precedes.irrefl (precedes_of_waits hr hi hwants)

end LockSys

end Tla

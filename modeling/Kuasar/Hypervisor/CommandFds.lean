import Kuasar.Data.Moves

/-!
# Hypervisor.CommandFds — the file descriptors that a hypervisor is started with

The hypervisor finds the descriptors of its tap devices and of its vsock at fixed numbers, from
three on. `set_cmd_fd` moves them there in the child process, after the standard streams were
set up and before the program is executed: one after another, each over whatever is open at its
number.

`child_descriptors_iff`: every descriptor arrives if and only if none of them is a standard
stream that was redirected, and none stands where an earlier one goes.
-/

namespace Kuasar.CommandFds

open Moves

variable {φ : Type*}

/-- What a descriptor refers to, and whether it is closed when a program is executed. -/
structure Descriptor (φ : Type*) where
  file : φ
  cloexec : Bool
  deriving DecidableEq, Repr

/-- The open descriptors of a process. -/
abbrev FdTable (φ : Type*) := ℕ → Option (Descriptor φ)

def FdTable.files (t : FdTable φ) (n : ℕ) : Option φ := (t n).map Descriptor.file

/-- The standard streams that the command redirects. -/
structure Stdio (φ : Type*) where
  stdin : Option φ := none
  stdout : Option φ := none
  stderr : Option φ := none

def Stdio.redirected (io : Stdio φ) : ℕ → Option φ
  | 0 => io.stdin
  | 1 => io.stdout
  | 2 => io.stderr
  | _ => none

/-- The child sets up its standard streams. -/
def FdTable.redirect (io : Stdio φ) (t : FdTable φ) : FdTable φ := fun n =>
  match io.redirected n with
  | some file => some ⟨file, false⟩
  | none => t n

/-- `dup2`. The new descriptor stays open when a program is executed. -/
def FdTable.dup2 (limit old new : ℕ) (t : FdTable φ) : Option (FdTable φ) :=
  match t old with
  | none => none
  | some d => if new < limit then some (Function.update t new (some ⟨d.file, false⟩)) else none

/-- `fcntl` with `F_GETFD` and `F_SETFD`: the flag is removed. -/
def FdTable.clearCloexec (n : ℕ) (t : FdTable φ) : Option (FdTable φ) :=
  match t n with
  | none => none
  | some d => some (Function.update t n (some { d with cloexec := false }))

/-- The loop of `set_cmd_fd`, at index `i`. -/
def setCmdFd (limit i : ℕ) : List ℕ → FdTable φ → Option (FdTable φ)
  | [], t => some t
  | oldFd :: fds, t =>
    let newFd := 3 + i
    match if oldFd = newFd then t.clearCloexec oldFd else t.dup2 limit oldFd newFd with
    | none => none
    | some t => setCmdFd limit (i + 1) fds t

/-- `execve` closes the descriptors that are marked so. -/
def FdTable.exec (t : FdTable φ) : FdTable φ := fun n => (t n).filter fun d => !d.cloexec

/-- A command with these descriptors is started; `limit` is the limit on descriptors. -/
def spawn (limit : ℕ) (io : Stdio φ) (fds : List ℕ) (t : FdTable φ) : Option (FdTable φ) :=
  (setCmdFd limit 0 fds (t.redirect io)).map FdTable.exec

/-- The descriptor at `3 + i` refers to the file of the `i`-th of the list, for every `i`. -/
def Arrive (fds : List ℕ) (t child : FdTable φ) : Prop :=
  ∀ i fd, fds[i]? = some fd → ∃ d, child (3 + i) = some d ∧ some d.file = t.files fd

/-- What stands in the way of a descriptor: a redirected stream, or an earlier descriptor that
goes to its place, unless either is the same file. -/
structure Clear (io : Stdio φ) (fds : List ℕ) (t : FdTable φ) : Prop where
  streams : ∀ fd ∈ fds, ∀ file, io.redirected fd = some file → t.files fd = some file
  places : ∀ i j earlier fd, i < j → fds[i]? = some earlier → fds[j]? = some fd → fd = 3 + i →
    t.files earlier = t.files fd

/-! ## The loop as moves -/

/-- The moves of the loop from index `i` on. -/
def moves (i : ℕ) (fds : List ℕ) : List (ℕ × ℕ) := (fds.zipIdx i).map fun p => (3 + p.2, p.1)

theorem moves_cons (i fd : ℕ) (fds : List ℕ) :
    moves i (fd :: fds) = (3 + i, fd) :: moves (i + 1) fds := by
  rw [moves, List.zipIdx_cons, List.map_cons]
  rfl

variable {i limit : ℕ} {fds : List ℕ} {t : FdTable φ} {io : Stdio φ}

theorem mem_moves {m : ℕ × ℕ} : m ∈ moves i fds ↔ ∃ j, fds[j]? = some m.2 ∧ m.1 = 3 + (i + j) := by
  induction fds generalizing i with
  | nil => simp [moves]
  | cons fd fds ih =>
    rw [moves_cons, List.mem_cons, ih]
    constructor
    · rintro (rfl | ⟨j, hj, hm⟩)
      · exact ⟨0, rfl, rfl⟩
      · exact ⟨j + 1, hj, by omega⟩
    · rintro ⟨_ | j, hj, hm⟩
      · exact .inl (Prod.ext hm (Option.some.inj hj).symm)
      · exact .inr ⟨j, hj, by omega⟩

theorem nodup_moves (i : ℕ) (fds : List ℕ) : ((moves i fds).map Prod.fst).Nodup := by
  induction fds generalizing i with
  | nil => simp [moves]
  | cons fd fds ih =>
    rw [moves_cons, List.map_cons, List.nodup_cons]
    refine ⟨?_, ih (i + 1)⟩
    intro hmem
    obtain ⟨m, hm, heq⟩ := List.mem_map.mp hmem
    obtain ⟨j, -, hj⟩ := mem_moves.mp hm
    omega

/-- One round of the loop: the file of the descriptor is at its place, open for the program. -/
theorem round_eq {fd : ℕ} {d : Descriptor φ} (hlimit : 3 + i < limit) (hfd : t fd = some d) :
    (if fd = 3 + i then t.clearCloexec fd else t.dup2 limit fd (3 + i)) =
      some (Function.update t (3 + i) (some ⟨d.file, false⟩)) := by
  split
  · rename_i heq
    rw [FdTable.clearCloexec, hfd, heq]
  · rw [FdTable.dup2, hfd]
    exact if_pos hlimit

theorem files_update {fd n : ℕ} {d : Descriptor φ} (hd : t fd = some d) :
    FdTable.files (Function.update t n (some ⟨d.file, false⟩)) =
      Function.update t.files n (t.files fd) := by
  funext k
  by_cases heq : k = n
  · simp [FdTable.files, heq, hd]
  · simp [FdTable.files, Function.update_of_ne heq]

/-- The loop makes its moves, and leaves what it moved open for the program. -/
theorem setCmdFd_eq (hlimit : 3 + (i + fds.length) ≤ limit) (hopen : ∀ fd ∈ fds, (t fd).isSome) :
    ∃ t', setCmdFd limit i fds t = some t' ∧ t'.files = seq (moves i fds) t.files ∧
      (∀ n, n ∉ (moves i fds).map Prod.fst → t' n = t n) ∧
      ∀ m ∈ moves i fds, ∀ d, t' m.1 = some d → d.cloexec = false := by
  induction fds generalizing i t with
  | nil => exact ⟨t, rfl, rfl, fun _ _ => rfl, fun m hm => by simp [moves] at hm⟩
  | cons fd fds ih =>
    obtain ⟨d, hd⟩ := Option.isSome_iff_exists.mp (hopen fd List.mem_cons_self)
    rw [List.length_cons] at hlimit
    have hround := round_eq (show 3 + i < limit by omega) hd
    have hopen' : ∀ k ∈ fds, (Function.update t (3 + i) (some ⟨d.file, false⟩) k).isSome := by
      intro k hk
      by_cases heq : k = 3 + i
      · rw [heq, Function.update_self]
        rfl
      · rw [Function.update_of_ne heq]
        exact hopen k (List.mem_cons_of_mem fd hk)
    have hlimit' : 3 + (i + 1 + fds.length) ≤ limit := by omega
    obtain ⟨t', ht', hfiles, hrest, hclear⟩ := ih hlimit' hopen'
    have hnd := nodup_moves i (fd :: fds)
    rw [moves_cons, List.map_cons, List.nodup_cons] at hnd
    refine ⟨t', ?_, ?_, ?_, ?_⟩
    · simp only [setCmdFd, hround]
      exact ht'
    · rw [hfiles, moves_cons, seq, files_update hd]
    · intro n hn
      rw [moves_cons, List.map_cons, List.mem_cons, not_or] at hn
      rw [hrest n hn.2, Function.update_of_ne hn.1]
    · intro m hm d' hd'
      rcases List.mem_cons.mp hm with rfl | hm
      · rw [hrest _ hnd.1, Function.update_self] at hd'
        rw [← Option.some.inj hd']
      · exact hclear m hm d' hd'

/-! ## What arrives -/

theorem isSome_redirect {n : ℕ} (h : (t n).isSome) : (t.redirect io n).isSome := by
  unfold FdTable.redirect
  split
  · rfl
  · exact h

theorem files_redirect (io : Stdio φ) (t : FdTable φ) (n : ℕ) :
    (t.redirect io).files n = (io.redirected n).or (t.files n) := by
  unfold FdTable.files FdTable.redirect
  cases io.redirected n with
  | none => rfl
  | some file => rfl

theorem redirected_add_three (io : Stdio φ) (i : ℕ) : io.redirected (3 + i) = none := by
  rw [Nat.add_comm]
  rfl

/-- The moves deliver what the redirection left, and so the program finds it. -/
theorem arrive_iff (io : Stdio φ) (hopen : ∀ fd ∈ fds, (t fd).isSome)
    (hlimit : 3 + fds.length ≤ limit) :
    ∃ child, spawn limit io fds t = some child ∧
      (Arrive fds t child ↔
        ∀ m ∈ moves 0 fds, seq (moves 0 fds) (t.redirect io).files m.1 = t.files m.2) := by
  have hopen' : ∀ fd ∈ fds, (t.redirect io fd).isSome :=
    fun fd hfd => isSome_redirect (hopen fd hfd)
  have hlimit' : 3 + (0 + fds.length) ≤ limit := by omega
  obtain ⟨t', ht', hfiles, -, hclear⟩ := setCmdFd_eq hlimit' hopen'
  refine ⟨t'.exec, by rw [spawn, ht']; rfl, ?_⟩
  have hexec : ∀ m ∈ moves 0 fds, t'.exec m.1 = t' m.1 := by
    intro m hm
    unfold FdTable.exec
    cases hd : t' m.1 with
    | none => rfl
    | some d => simp [hclear m hm d hd]
  rw [← hfiles]
  constructor
  · intro harrive m hm
    obtain ⟨j, hj, hm₁⟩ := mem_moves.mp hm
    obtain ⟨d, hd, hfile⟩ := harrive j m.2 hj
    have hplace : m.1 = 3 + j := by omega
    rw [← hplace, hexec m hm] at hd
    rw [← hfile, FdTable.files, hd]
    rfl
  · intro hseq i fd hfd
    have hm : (3 + i, fd) ∈ moves 0 fds := mem_moves.mpr ⟨i, hfd, by omega⟩
    obtain ⟨d, hd⟩ := Option.isSome_iff_exists.mp (hopen fd (List.mem_of_getElem? hfd))
    have hfile := hseq _ hm
    rw [FdTable.files, FdTable.files, hd] at hfile
    obtain ⟨d', hd', hfile⟩ := Option.map_eq_some_iff.mp hfile
    refine ⟨d', (hexec _ hm).trans hd', ?_⟩
    rw [hfile, FdTable.files, hd]
    rfl

theorem undisturbed_moves {f : ℕ → Option φ} :
    Undisturbed (moves i fds) f ↔
      ∀ k j earlier fd, k < j → fds[k]? = some earlier → fds[j]? = some fd → fd = 3 + (i + k) →
        f earlier = f fd := by
  induction fds generalizing i with
  | nil => simp [Undisturbed, moves]
  | cons first fds ih =>
    rw [moves_cons, Undisturbed, List.pairwise_cons]
    constructor
    · rintro ⟨hfirst, hrest⟩ k j earlier fd hkj hk hj hplace
      obtain ⟨j, rfl⟩ : ∃ j', j = j' + 1 := ⟨j - 1, by omega⟩
      cases k with
      | zero =>
        have hlater : (3 + (i + 1 + j), fd) ∈ moves (i + 1) fds := mem_moves.mpr ⟨j, hj, rfl⟩
        cases hk
        rw [hplace]
        exact hfirst _ hlater hplace
      | succ k =>
        exact ih.mp hrest k j earlier fd (by omega) hk hj (by omega)
    · intro h
      constructor
      · intro m hm hplace
        obtain ⟨j, hj, -⟩ := mem_moves.mp hm
        rw [← hplace]
        exact h 0 (j + 1) first m.2 (by omega) rfl hj hplace
      · apply ih.mpr
        intro k j earlier fd hkj hk hj hplace
        exact h (k + 1) (j + 1) earlier fd (by omega) hk hj (by omega)

/-- What the redirection leaves of the descriptors that are moved. -/
theorem files_redirect_iff :
    (∀ fd ∈ fds, (t.redirect io).files fd = t.files fd) ↔
      ∀ fd ∈ fds, ∀ file, io.redirected fd = some file → t.files fd = some file := by
  apply forall₂_congr
  intro fd _
  rw [files_redirect]
  cases io.redirected fd with
  | none => simp
  | some file => simp [eq_comm]

theorem source_mem {m : ℕ × ℕ} (hm : m ∈ moves 0 fds) : m.2 ∈ fds := by
  obtain ⟨j, hj, -⟩ := mem_moves.mp hm
  exact List.mem_of_getElem? hj

/-- When the descriptors arrive, the redirection has not changed one of them. -/
theorem files_redirect_of_arrived
    (hseq : ∀ m ∈ moves 0 fds, seq (moves 0 fds) (t.redirect io).files m.1 = t.files m.2) :
    ∀ fd ∈ fds, (t.redirect io).files fd = t.files fd := by
  intro fd hfd
  obtain ⟨j, hj⟩ := List.mem_iff_getElem?.mp hfd
  have hm : (3 + j, fd) ∈ moves 0 fds := mem_moves.mpr ⟨j, hj, by omega⟩
  by_cases hdest : fd ∈ (moves 0 fds).map Prod.fst
  · -- a place of the loop is no standard stream
    obtain ⟨m, hplace, hfd'⟩ := List.mem_map.mp hdest
    obtain ⟨k, -, hk⟩ := mem_moves.mp hplace
    rw [files_redirect, ← hfd', hk, redirected_add_three, Option.none_or]
  · rw [← hseq _ hm, seq_of_source (nodup_moves 0 fds) hm hdest]

/-- Once the redirection changes no descriptor that is moved, the moves have to deliver. -/
theorem arrived_iff (hsame : ∀ fd ∈ fds, (t.redirect io).files fd = t.files fd) :
    (∀ m ∈ moves 0 fds, seq (moves 0 fds) (t.redirect io).files m.1 = t.files m.2) ↔
      ∀ k j earlier fd, k < j → fds[k]? = some earlier → fds[j]? = some fd → fd = 3 + k →
        t.files earlier = t.files fd := by
  have hdel : (∀ m ∈ moves 0 fds, seq (moves 0 fds) (t.redirect io).files m.1 = t.files m.2) ↔
      Delivers (moves 0 fds) (t.redirect io).files := by
    apply forall₂_congr
    intro m hm
    rw [hsame m.2 (source_mem hm)]
  rw [hdel, delivers_iff (nodup_moves 0 fds), undisturbed_moves]
  constructor
  · intro h k j earlier fd hkj hk hj hplace
    rw [← hsame _ (List.mem_of_getElem? hk), ← hsame _ (List.mem_of_getElem? hj)]
    exact h k j earlier fd hkj hk hj (by omega)
  · intro h k j earlier fd hkj hk hj hplace
    rw [hsame _ (List.mem_of_getElem? hk), hsame _ (List.mem_of_getElem? hj)]
    exact h k j earlier fd hkj hk hj (by omega)

/-- The command is started, and every descriptor of the list arrives at its number, open for the
program, if and only if nothing stands in the way of one. -/
theorem child_descriptors_iff (limit : ℕ) (io : Stdio φ) (fds : List ℕ) (t : FdTable φ)
    (hopen : ∀ fd ∈ fds, (t fd).isSome) (hlimit : 3 + fds.length ≤ limit) :
    ∃ child, spawn limit io fds t = some child ∧ (Arrive fds t child ↔ Clear io fds t) := by
  obtain ⟨child, hspawn, harrive⟩ := arrive_iff io hopen hlimit
  refine ⟨child, hspawn, harrive.trans ?_⟩
  constructor
  · intro hseq
    have hsame := files_redirect_of_arrived hseq
    exact ⟨files_redirect_iff.mp hsame, (arrived_iff hsame).mp hseq⟩
  · rintro ⟨hstreams, hplaces⟩
    exact (arrived_iff (files_redirect_iff.mpr hstreams)).mpr hplaces

/-- A process with five open descriptors, each of its own file; all are closed on execution. -/
def fiveOpen : FdTable String := fun n =>
  if n < 5 then some ⟨"file" ++ toString n, true⟩ else none

/-- Two descriptors are moved, the second to where the first stood. -/
theorem child_descriptors_iff_moved :
    ∃ child, spawn 1024 {} [4, 2] fiveOpen = some child ∧ Arrive [4, 2] fiveOpen child := by
  obtain ⟨child, hspawn, hiff⟩ := child_descriptors_iff 1024 {} [4, 2] fiveOpen (by decide)
    (by decide)
  refine ⟨child, hspawn, hiff.mpr ⟨?_, ?_⟩⟩
  · intro fd hfd file hfile
    have hplace : fd = 4 ∨ fd = 2 := by simpa using hfd
    rcases hplace with rfl | rfl <;> cases hfile
  · intro i j earlier fd hij hi hj hplace
    have hj' : j < 2 := (List.getElem?_eq_some_iff.mp hj).1
    obtain ⟨rfl, rfl⟩ : i = 0 ∧ j = 1 := by omega
    cases hj
    cases hplace

/-- Of two descriptors that stand at each other's places the first overwrites the second: the
program finds the file of the first at both numbers. -/
theorem swapped_descriptors_lost :
    (∀ fd ∈ [4, 3], (fiveOpen fd).isSome) ∧
      ∃ child, spawn 1024 {} [4, 3] fiveOpen = some child ∧
        child 4 = some ⟨"file4", false⟩ ∧ fiveOpen.files 3 = some "file3" ∧
        ¬ Arrive [4, 3] fiveOpen child := by
  refine ⟨by decide, _, rfl, by decide, by decide, ?_⟩
  intro harrive
  obtain ⟨d, hd, hfile⟩ := harrive 1 3 rfl
  exact absurd (hd.symm.trans (by decide : _ = some ⟨"file4", false⟩)) (by
    rintro heq
    rw [Option.some.inj heq] at hfile
    exact absurd hfile (by decide))

end Kuasar.CommandFds

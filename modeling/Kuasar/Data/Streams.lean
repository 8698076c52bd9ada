import Mathlib.Algebra.GroupWithZero.Nat
import Mathlib.Tactic.Common

/-!
# Data.Streams — streams that arrive in chunks, and fixed-width integers

A reader sees a stream in the chunks the transport delivers, and a read returns at most
what is left of the chunk at hand. `Chunked β` is a stream as its chunks; the end of the
list is the end of the stream. `readExact` reads until it has the number of elements
asked for, and what it returns depends on the concatenation of the chunks alone
(`readExact_append`, `readExact_eq_some`). `read` is a single read: it returns what is there
of the first chunk.

`toBeBytes w n` and `toLeBytes w n` are the `w` low bytes of `n`, most and least significant first.
-/

universe u

/-! ## Chunks -/

/-- A stream as the chunks it arrives in. An empty read means the end of the stream, so
that no chunk is empty. -/
structure Chunked (β : Type u) where
  chunks : List (List β)
  nonempty : [] ∉ chunks

namespace Chunked

variable {β : Type u} {n : ℕ} {cs rest : List (List β)} {a b bs : List β} {s s' : Chunked β}

/-- What the stream carries. -/
def content (s : Chunked β) : List β := s.chunks.flatten

/-- The stream that arrives at once. -/
def whole : List β → Chunked β
  | [] => ⟨[], by simp⟩
  | b :: bs => ⟨[b :: bs], by simp⟩

theorem content_whole (bs : List β) : (whole bs).content = bs := by
  cases bs with
  | nil => rfl
  | cons b bs => simp [whole, content]

/-- Read `n` elements: chunk by chunk, and what is left of the last one stays. The end of
the stream before that is an error. -/
def takeExact : ℕ → List (List β) → Option (List β × List (List β))
  | 0, cs => some ([], cs)
  | _ + 1, [] => none
  | n + 1, c :: cs =>
    if c.length ≤ n + 1 then
      (takeExact (n + 1 - c.length) cs).map fun r => (c ++ r.1, r.2)
    else some (c.take (n + 1), c.drop (n + 1) :: cs)

theorem takeExact_spec (h : takeExact n cs = some (bs, rest)) :
    bs.length = n ∧ cs.flatten = bs ++ rest.flatten ∧ ([] ∉ cs → [] ∉ rest) := by
  induction cs generalizing n bs with
  | nil =>
    cases n with
    | zero =>
      cases h
      exact ⟨rfl, rfl, id⟩
    | succ n => cases h
  | cons c cs ih =>
    cases n with
    | zero =>
      cases h
      exact ⟨rfl, rfl, id⟩
    | succ n =>
      simp only [takeExact] at h
      split at h
      · rcases ht : takeExact (n + 1 - c.length) cs with _ | ⟨r, rest'⟩
        · simp [ht] at h
        · rw [ht] at h
          cases h
          obtain ⟨hlen, hflat, hne⟩ := ih ht
          refine ⟨?_, ?_, fun hcs => hne fun hmem => hcs (List.mem_cons_of_mem c hmem)⟩
          · rw [List.length_append, hlen]
            omega
          · rw [List.flatten_cons, hflat, List.append_assoc]
      · cases h
        refine ⟨?_, ?_, fun hcs hmem => ?_⟩
        · rw [List.length_take]
          omega
        · rw [List.flatten_cons, List.flatten_cons, ← List.append_assoc, List.take_append_drop]
        · -- the chunk is longer than what was read of it
          rcases List.mem_cons.mp hmem with hdrop | hmem
          · have := congrArg List.length hdrop
            simp only [List.length_nil, List.length_drop] at this
            omega
          · exact hcs (List.mem_cons_of_mem c hmem)

theorem takeExact_nonempty (hcs : [] ∉ cs) (h : takeExact n cs = some (bs, rest)) : [] ∉ rest :=
  (takeExact_spec h).2.2 hcs

theorem takeExact_isSome (h : n ≤ cs.flatten.length) : ∃ r, takeExact n cs = some r := by
  induction cs generalizing n with
  | nil =>
    cases n with
    | zero => exact ⟨_, rfl⟩
    | succ n => cases h
  | cons c cs ih =>
    cases n with
    | zero => exact ⟨_, rfl⟩
    | succ n =>
      rw [List.flatten_cons, List.length_append] at h
      rw [takeExact]
      split
      · obtain ⟨r, hr⟩ := @ih (n + 1 - c.length) (by omega)
        rw [hr]
        exact ⟨_, rfl⟩
      · exact ⟨_, rfl⟩

/-- `read_exact`: the `n` elements and the stream that is left. -/
def readExact (n : ℕ) (s : Chunked β) : Option (List β × Chunked β) :=
  match h : takeExact n s.chunks with
  | none => none
  | some (bs, rest) => some (bs, ⟨rest, takeExact_nonempty s.nonempty h⟩)

theorem takeExact_append (h : cs.flatten = a ++ b) :
    ∃ rest, takeExact a.length cs = some (a, rest) ∧ rest.flatten = b := by
  have hlen : a.length ≤ cs.flatten.length := by
    rw [h, List.length_append]
    omega
  obtain ⟨⟨bs, rest⟩, hr⟩ := takeExact_isSome hlen
  obtain ⟨hbs, hflat, -⟩ := takeExact_spec hr
  obtain ⟨rfl, rfl⟩ := List.append_inj (hflat.symm.trans h) hbs
  exact ⟨rest, hr, rfl⟩

/-- A read returns the front of the stream, however it is cut into chunks. -/
theorem readExact_append (h : s.content = a ++ b) :
    ∃ s', s.readExact a.length = some (a, s') ∧ s'.content = b := by
  obtain ⟨rest, htake, hflat⟩ := takeExact_append h
  refine ⟨⟨rest, takeExact_nonempty s.nonempty htake⟩, ?_, hflat⟩
  unfold readExact
  split
  · rename_i hnone
    rw [htake] at hnone
    cases hnone
  · rename_i bs rest' hsome
    have := htake.symm.trans hsome
    cases this
    rfl

/-- A read that succeeds consumed what it returned, and that is what was asked for. -/
theorem readExact_eq_some (h : s.readExact n = some (bs, s')) :
    bs.length = n ∧ s.content = bs ++ s'.content := by
  unfold readExact at h
  split at h
  · cases h
  · rename_i hsome
    cases h
    obtain ⟨hlen, hflat, -⟩ := takeExact_spec hsome
    exact ⟨hlen, hflat⟩

/-- One read into a buffer of `n`: the front of the first chunk, nothing at the end of the
stream. -/
def read (n : ℕ) (s : Chunked β) : List β × Chunked β :=
  match s with
  | ⟨[], _⟩ => ([], whole [])
  | ⟨c :: cs, h⟩ =>
    if hlong : n < c.length then
      (c.take n, ⟨c.drop n :: cs, by
        intro hmem
        rcases List.mem_cons.mp hmem with hdrop | hmem
        · have := congrArg List.length hdrop
          simp only [List.length_nil, List.length_drop] at this
          omega
        · exact h (List.mem_cons_of_mem c hmem)⟩)
    else (c, ⟨cs, fun hmem => h (List.mem_cons_of_mem c hmem)⟩)

/-- A read takes what it returns from the front of the stream. -/
theorem content_read (n : ℕ) (s : Chunked β) :
    s.content = (s.read n).1 ++ (s.read n).2.content := by
  obtain ⟨_ | ⟨c, cs⟩, h⟩ := s
  · rfl
  · unfold read
    dsimp only
    split
    · show (c :: cs).flatten = c.take n ++ (c.drop n :: cs).flatten
      rw [List.flatten_cons, List.flatten_cons, ← List.append_assoc, List.take_append_drop]
    · exact List.flatten_cons

end Chunked

/-! ## Fixed-width integers -/

/-- The `w` low bytes of `n`, most significant first. -/
def toBeBytes : ℕ → ℕ → List UInt8
  | 0, _ => []
  | w + 1, n => toBeBytes w (n / 256) ++ [UInt8.ofNat n]

/-- The number that the bytes stand for, most significant first. -/
def fromBeBytes (bs : List UInt8) : ℕ := bs.foldl (fun n b => n * 256 + b.toNat) 0

theorem length_toBeBytes (w n : ℕ) : (toBeBytes w n).length = w := by
  induction w generalizing n with
  | zero => rfl
  | succ w ih => simp [toBeBytes, ih]

/-- The bytes of a number that does not fit stand for its low part. -/
theorem fromBeBytes_toBeBytes (w n : ℕ) : fromBeBytes (toBeBytes w n) = n % 256 ^ w := by
  induction w generalizing n with
  | zero => simp [toBeBytes, fromBeBytes, Nat.mod_one]
  | succ w ih =>
    have hhigh := ih (n / 256)
    unfold fromBeBytes at hhigh ⊢
    rw [toBeBytes, List.foldl_append, hhigh]
    simp only [List.foldl_cons, List.foldl_nil, UInt8.toNat_ofNat', Nat.reducePow]
    rw [Nat.pow_succ, Nat.mul_comm (256 ^ w) 256, Nat.mod_mul]
    omega

/-- The `w` low bytes of `n`, least significant first. -/
def toLeBytes : ℕ → ℕ → List UInt8
  | 0, _ => []
  | w + 1, n => UInt8.ofNat n :: toLeBytes w (n / 256)

/-- The number that the bytes stand for, least significant first. -/
def fromLeBytes : List UInt8 → ℕ
  | [] => 0
  | b :: bs => b.toNat + 256 * fromLeBytes bs

theorem length_toLeBytes (w n : ℕ) : (toLeBytes w n).length = w := by
  induction w generalizing n with
  | zero => rfl
  | succ w ih => rw [toLeBytes, List.length_cons, ih]

theorem take_toLeBytes {m w : ℕ} (h : m ≤ w) (n : ℕ) : (toLeBytes w n).take m = toLeBytes m n := by
  induction m generalizing w n with
  | zero => rfl
  | succ m ih =>
    obtain ⟨w, rfl⟩ : ∃ v, w = v + 1 := ⟨w - 1, by omega⟩
    rw [toLeBytes, toLeBytes, List.take_succ_cons, ih (by omega)]

theorem fromLeBytes_toLeBytes (w n : ℕ) : fromLeBytes (toLeBytes w n) = n % 256 ^ w := by
  induction w generalizing n with
  | zero => rw [toLeBytes, fromLeBytes, Nat.pow_zero, Nat.mod_one]
  | succ w ih =>
    have hbyte : (UInt8.ofNat n).toNat = n % 256 := UInt8.toNat_ofNat'
    rw [toLeBytes, fromLeBytes, ih, hbyte, Nat.pow_succ, Nat.mul_comm (256 ^ w) 256, Nat.mod_mul]

theorem fromLeBytes_append_zeros (bs : List UInt8) (k : ℕ) :
    fromLeBytes (bs ++ List.replicate k 0) = fromLeBytes bs := by
  induction bs with
  | nil =>
    rw [List.nil_append]
    induction k with
    | zero => rfl
    | succ k ih => simpa [List.replicate_succ, fromLeBytes] using ih
  | cons b bs ih => rw [List.cons_append, fromLeBytes, ih, fromLeBytes]

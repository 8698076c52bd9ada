import Kuasar.Data.Text

/-!
# Data.Octal — texts with octal escapes

Characters that would end a field are printed as a backslash and the three octal digits of their
code. If the backslash is one of them, replacing the codes one after the other, that of the
backslash last, gives the text back: `replaceAll_escape` takes one character from the set of those
that are escaped.
-/

namespace Octal

/-- A backslash and three octal digits. -/
def code (c : Char) : List Char :=
  ['\\', Nat.digitChar (c.toNat / 64 % 8), Nat.digitChar (c.toNat / 8 % 8),
    Nat.digitChar (c.toNat % 8)]

def escape (special : List Char) (text : List Char) : List Char :=
  text.flatMap fun c => if c ∈ special then code c else [c]

variable {special text : List Char} {c x : Char}

theorem digitChar_inj {m n : ℕ} (hm : m < 8) (hn : n < 8)
    (h : Nat.digitChar m = Nat.digitChar n) : m = n := by
  have hall : ∀ m < 8, ∀ n < 8, Nat.digitChar m = Nat.digitChar n → m = n := by decide
  exact hall m hm n hn h

theorem digitChar_ne_backslash {n : ℕ} (hn : n < 8) : Nat.digitChar n ≠ '\\' := by
  have hall : ∀ n < 8, Nat.digitChar n ≠ '\\' := by decide
  exact hall n hn

theorem code_inj (hc : c.toNat < 512) (hx : x.toNat < 512) (h : code c = code x) : c = x := by
  simp only [code, List.cons.injEq, true_and, and_true] at h
  obtain ⟨h₁, h₂, h₃⟩ := h
  have h₁ := digitChar_inj (by omega) (by omega) h₁
  have h₂ := digitChar_inj (by omega) (by omega) h₂
  have h₃ := digitChar_inj (by omega) (by omega) h₃
  exact Char.toNat_inj.mp (by omega)

theorem escape_cons : escape special (x :: text) =
    (if x ∈ special then code x else [x]) ++ escape special text := rfl

/-- The code of a character begins with a backslash, and has no other. -/
theorem not_starts_with_code (h : x ≠ '\\') : ¬ code c <+: x :: text := by
  intro hpre
  exact h (List.cons_prefix_cons.mp hpre).1.symm

theorem replaceAll_code_of_ne (hc : c.toNat < 512) (hx : x.toNat < 512) (hne : x ≠ c) :
    Text.replaceAll (code c) [c] (code x ++ text) =
      code x ++ Text.replaceAll (code c) [c] text := by
  have hfirst : ¬ code c <+: '\\' :: Nat.digitChar (x.toNat / 64 % 8) ::
      Nat.digitChar (x.toNat / 8 % 8) :: Nat.digitChar (x.toNat % 8) :: text := by
    intro hpre
    have heq : code c = code x := List.prefix_iff_eq_take.mp hpre
    exact hne (code_inj hc hx heq).symm
  have hdigit : ∀ n rest, ¬ code c <+: Nat.digitChar (n % 8) :: rest := fun n rest =>
    not_starts_with_code (digitChar_ne_backslash (by omega))
  change Text.replaceAll _ _ ('\\' :: Nat.digitChar (x.toNat / 64 % 8) ::
    Nat.digitChar (x.toNat / 8 % 8) :: Nat.digitChar (x.toNat % 8) :: text) = _
  rw [Text.replaceAll_cons hfirst, Text.replaceAll_cons (hdigit _ _),
    Text.replaceAll_cons (hdigit _ _), Text.replaceAll_cons (hdigit _ _)]
  rfl

/-- Replacing the code of one character unescapes this character alone. -/
theorem replaceAll_escape (hsmall : ∀ x ∈ special, x.toNat < 512) (hslash : '\\' ∈ special)
    (hc : c ∈ special) : Text.replaceAll (code c) [c] (escape special text) =
      escape (special.filter (· ≠ c)) text := by
  induction text with
  | nil => rfl
  | cons x text ih =>
    rw [escape_cons, escape_cons]
    by_cases hx : x ∈ special
    · rw [if_pos hx]
      by_cases hxc : x = c
      · rw [hxc, Text.replaceAll_append (by simp [code]), ih, if_neg (by simp)]
      · rw [replaceAll_code_of_ne (hsmall c hc) (hsmall x hx) hxc, ih,
          if_pos (by simpa using ⟨hx, hxc⟩)]
    · have hne : x ≠ '\\' := by
        rintro rfl
        exact hx hslash
      rw [if_neg hx, if_neg (by simp [hx]), List.singleton_append,
        Text.replaceAll_cons (not_starts_with_code hne), ih]
      rfl

/-! ## What an escaped text is made of -/

/-- The characters of the codes. -/
def digits : List Char := "\\01234567".toList

theorem mem_code (h : x ∈ code c) : x ∈ digits := by
  have hall : ∀ n < 8, Nat.digitChar n ∈ digits := by decide
  simp only [code, List.mem_cons, List.not_mem_nil, or_false] at h
  rcases h with rfl | rfl | rfl | rfl
  · decide
  · exact hall _ (by omega)
  · exact hall _ (by omega)
  · exact hall _ (by omega)

theorem mem_escape (h : x ∈ escape special text) : (x ∈ text ∧ x ∉ special) ∨ x ∈ digits := by
  obtain ⟨c, hc, hx⟩ := List.mem_flatMap.mp h
  split at hx
  · exact Or.inr (mem_code hx)
  · rw [List.mem_singleton] at hx
    subst hx
    exact Or.inl ⟨hc, ‹_›⟩

theorem notMem_escape (hc : c ∈ special) (hdigit : c ∉ digits) : c ∉ escape special text := by
  intro hmem
  rcases mem_escape hmem with ⟨-, hspecial⟩ | h
  · exact hspecial hc
  · exact hdigit h

theorem escape_of_none (h : ∀ c ∈ text, c ∉ special) : escape special text = text := by
  induction text with
  | nil => rfl
  | cons x text ih =>
    rw [escape_cons, if_neg (h x List.mem_cons_self),
      ih fun c hc => h c (List.mem_cons_of_mem _ hc)]
    rfl

theorem length_le_escape : text.length ≤ (escape special text).length := by
  induction text with
  | nil => exact le_rfl
  | cons x text ih =>
    rw [escape_cons, List.length_append, List.length_cons]
    split
    · simp only [code, List.length_cons]
      omega
    · simp only [List.length_singleton]
      omega

/-- A text stays as it is exactly if there is nothing to escape. -/
theorem escape_eq_self_iff : escape special text = text ↔ ∀ c ∈ text, c ∉ special := by
  refine ⟨?_, escape_of_none⟩
  induction text with
  | nil => exact fun _ _ hc => absurd hc List.not_mem_nil
  | cons x text ih =>
    intro h
    rw [escape_cons] at h
    by_cases hx : x ∈ special
    · -- the code is longer than the character
      have hlen := congrArg List.length h
      have hle : text.length ≤ (escape special text).length := length_le_escape
      rw [if_pos hx, List.length_append, List.length_cons] at hlen
      simp only [code, List.length_cons] at hlen
      omega
    · rw [if_neg hx, List.singleton_append, List.cons.injEq] at h
      intro c hc
      rcases List.mem_cons.mp hc with rfl | hc
      · exact hx
      · exact ih h.2 c hc

theorem escape_ne_nil (h : text ≠ []) : escape special text ≠ [] := by
  intro hnil
  have hle : text.length ≤ (escape special text).length := length_le_escape
  rw [hnil, List.length_nil] at hle
  exact h (List.length_eq_zero_iff.mp (by omega))

end Octal

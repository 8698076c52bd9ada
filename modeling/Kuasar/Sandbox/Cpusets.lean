import Kuasar.Data.Text
import Kuasar.Sandbox.SnapshotStart

/-!
# Sandbox.Cpusets — merging lists of CPUs

The CPUs of a pod and those of its overhead are lists of ranges, `0-3,8`. `merge_cpusets` extends
each range of the first list by the ranges of the second that it meets, one after the other, and
adds those ranges of the second that meet nothing that is there by then.

What it makes of the ranges is exact (`mem_mergeParts`): of the second list, it keeps the ranges
that are linked to the first, directly or by ranges before them, and those that are alone. A range
that meets one of these only from the other side is dropped, with the CPUs that only it has. Where
no two ranges of the second list meet, nothing is dropped (`kept_of_apart`).
-/

namespace Kuasar.Cpusets

open Text

/-- The lowest and the highest CPU. -/
abbrev Range := ℕ × ℕ

inductive CpusetError where
  /-- cpuset format error -/
  | format
  deriving DecidableEq, Repr

/-- `str::parse::<u32>`. -/
def parseU32 (text : List Char) : Option ℕ :=
  (SnapshotStart.numeral (String.ofList text)).filter (· < 2 ^ 32)

def cpusetNumber (text : List Char) : Except CpusetError ℕ :=
  match parseU32 (Text.trim text) with
  | some n => .ok n
  | none => .error .format

/-- `cpuset_one_part`. Only two parts make a range; of more, the first counts alone. -/
def cpusetOnePart (cpuset : List Char) : Except CpusetError Range :=
  match cpuset.splitOn '-' with
  | [] => .error .format
  | [low, high] => do
    let low ← cpusetNumber low
    let high ← cpusetNumber high
    return (low, high)
  | low :: _ => do
    let low ← cpusetNumber low
    return (low, low)

/-- `cpuset_parts`. -/
def cpusetParts (cpuset : List Char) : Except CpusetError (List Range) :=
  if Text.trim cpuset = [] then .ok [] else (cpuset.splitOn ',').mapM cpusetOnePart

/-- `cpuset_tostring`. -/
def cpusetTostring (cpuset : Range) : List Char :=
  if cpuset.1 = cpuset.2 then (toString cpuset.1).toList
  else (toString cpuset.1).toList ++ '-' :: (toString cpuset.2).toList

/-- `merge_cpuset`. -/
def mergeCpuset (base delta : Range) : Range :=
  if delta.2 < base.1 then base
  else if base.2 < delta.1 then base
  else (if delta.1 < base.1 then delta.1 else base.1, if base.2 < delta.2 then delta.2 else base.2)

/-- `cpuset_intersect`. -/
def cpusetIntersect (cpuset1 cpuset2 : Range) : Bool :=
  if cpuset2.2 < cpuset1.1 then false else if cpuset1.2 < cpuset2.1 then false else true

/-- A range of the second list joins the parts if it intersects none. -/
def pushApart (parts : List Range) (d : Range) : List Range :=
  if parts.any (cpusetIntersect d) then parts else parts ++ [d]

/-- The ranges that the two loops of `merge_cpusets` make. -/
def mergeParts (parts1 parts2 : List Range) : List Range :=
  parts2.foldl pushApart (parts1.map fun p => parts2.foldl mergeCpuset p)

/-- `merge_cpusets`. -/
def mergeCpusets (cpusets1 cpusets2 : List Char) : Except CpusetError (List Char) := do
  let parts1 ← cpusetParts cpusets1
  let parts2 ← cpusetParts cpusets2
  return [','].intercalate ((mergeParts parts1 parts2).map cpusetTostring)

/-! ## What a list denotes -/

/-- The CPU is in the range. -/
def Has (r : Range) (n : ℕ) : Prop := r.1 ≤ n ∧ n ≤ r.2

instance (r : Range) (n : ℕ) : Decidable (Has r n) :=
  inferInstanceAs (Decidable (r.1 ≤ n ∧ n ≤ r.2))

def cpus (rs : List Range) : Set ℕ := {n | ∃ r ∈ rs, Has r n}

instance (rs : List Range) (n : ℕ) : Decidable (n ∈ cpus rs) :=
  inferInstanceAs (Decidable (∃ r ∈ rs, Has r n))

/-- The range is not empty, and its bounds are machine integers. -/
def Proper (r : Range) : Prop := r.1 ≤ r.2 ∧ r.2 < 2 ^ 32

instance (r : Range) : Decidable (Proper r) :=
  inferInstanceAs (Decidable (r.1 ≤ r.2 ∧ r.2 < 2 ^ 32))

def IsNumber (text : List Char) (n : ℕ) : Prop :=
  ∃ before digits after, text = before ++ digits ++ after ∧ Text.Blank before ∧ Text.Blank after ∧
    digits ≠ [] ∧ (∀ c ∈ digits, c.isDigit = true) ∧ Nat.ofDigitChars 10 digits 0 = n

/-- The text is one number, or two with a hyphen between them. -/
def IsRange (text : List Char) (r : Range) : Prop :=
  Proper r ∧ ((r.1 = r.2 ∧ IsNumber text r.1) ∨
    ∃ low high, text = low ++ '-' :: high ∧ IsNumber low r.1 ∧ IsNumber high r.2)

/-- The text lists the ranges: it is blank, or it has ranges with commas between them. -/
def Listing (text : List Char) (rs : List Range) : Prop :=
  (Text.Blank text ∧ rs = []) ∨
    ∃ items, items ≠ [] ∧ text = [','].intercalate items ∧ List.Forall₂ IsRange items rs

/-- The text stands for the set. -/
def Denotes (text : List Char) (s : Set ℕ) : Prop := ∃ rs, Listing text rs ∧ cpus rs = s

/-- The ranges have a CPU in common. -/
def Meets (r s : Range) : Prop := ∃ n, Has r n ∧ Has s n

/-! ## What becomes of the second list -/

/-- The range at the position is reached from the first list: it meets a range of that list, or
one that is reached and stands before it. -/
inductive Linked (parts1 parts2 : List Range) : ℕ → Prop
  | meets {p d i} (hp : p ∈ parts1) (hd : parts2[i]? = some d) (h : Meets p d) :
      Linked parts1 parts2 i
  | next {e d j i} (hji : j < i) (hj : Linked parts1 parts2 j)
      (he : parts2[j]? = some e) (hd : parts2[i]? = some d) (h : Meets e d) :
      Linked parts1 parts2 i

/-- The range at the position meets no range of the first list, none that is linked to it, and none
before it that is alone itself. -/
def Alone (parts1 parts2 : List Range) (i : ℕ) : Prop :=
  ∃ d, parts2[i]? = some d ∧ (∀ p ∈ parts1, ¬ Meets p d) ∧
    (∀ j e, parts2[j]? = some e → Linked parts1 parts2 j → ¬ Meets e d) ∧
    ∀ j e, (hji : j < i) → parts2[j]? = some e → Alone parts1 parts2 j → ¬ Meets e d
termination_by i

/-- The CPU is in a range of the second list that is linked or alone. -/
def Kept (parts1 parts2 : List Range) (n : ℕ) : Prop :=
  ∃ i d, parts2[i]? = some d ∧ (Linked parts1 parts2 i ∨ Alone parts1 parts2 i) ∧ Has d n

/-! ## The ranges -/

variable {parts1 parts2 pre post : List Range} {base delta p d r : Range} {n : ℕ}

theorem Meets.symm (h : Meets base delta) : Meets delta base := by
  obtain ⟨n, hbase, hdelta⟩ := h
  exact ⟨n, hdelta, hbase⟩

/-- Two ranges meet if neither lies before the other. -/
theorem meets_iff (hbase : base.1 ≤ base.2) (hdelta : delta.1 ≤ delta.2) :
    Meets base delta ↔ base.1 ≤ delta.2 ∧ delta.1 ≤ base.2 := by
  constructor
  · rintro ⟨n, hn, hn'⟩
    unfold Has at hn hn'
    omega
  · intro h
    refine ⟨max base.1 delta.1, ?_, ?_⟩
    · unfold Has
      omega
    · unfold Has
      omega

theorem cpusetIntersect_iff (hbase : base.1 ≤ base.2) (hdelta : delta.1 ≤ delta.2) :
    cpusetIntersect base delta = true ↔ Meets base delta := by
  rw [meets_iff hbase hdelta, cpusetIntersect]
  split
  · simp only [Bool.false_eq_true, false_iff]
    omega
  split
  · simp only [Bool.false_eq_true, false_iff]
    omega
  · simp only [true_iff]
    omega

theorem mergeCpuset_eq (base delta : Range) : mergeCpuset base delta =
    if base.1 ≤ delta.2 ∧ delta.1 ≤ base.2 then (min base.1 delta.1, max base.2 delta.2)
    else base := by
  have hlow : (if delta.1 < base.1 then delta.1 else base.1) = min base.1 delta.1 := by
    split
    · omega
    · omega
  have hhigh : (if base.2 < delta.2 then delta.2 else base.2) = max base.2 delta.2 := by
    split
    · omega
    · omega
  rw [mergeCpuset, hlow, hhigh]
  split
  · rw [if_neg (by omega)]
  split
  · rw [if_neg (by omega)]
  · rw [if_pos (by omega)]

/-- Ranges that meet are merged to what both have; others stay. -/
theorem has_mergeCpuset (hbase : base.1 ≤ base.2) (hdelta : delta.1 ≤ delta.2) :
    Has (mergeCpuset base delta) n ↔ Has base n ∨ (Meets base delta ∧ Has delta n) := by
  rw [meets_iff hbase hdelta, mergeCpuset_eq]
  unfold Has
  split
  · omega
  · omega

theorem mergeCpuset_le (hbase : base.1 ≤ base.2) :
    (mergeCpuset base delta).1 ≤ (mergeCpuset base delta).2 := by
  rw [mergeCpuset_eq]
  split
  · omega
  · exact hbase

/-! ## The first loop -/

variable {parts rs : List Range} {i : ℕ} {text : List Char}

theorem Linked.mono (h : Linked parts parts2 i) (hsub : ∀ p ∈ parts, p ∈ parts1) :
    Linked parts1 parts2 i := by
  induction h with
  | meets hp hd h => exact .meets (hsub _ hp) hd h
  | next hji _ he hd h ih => exact .next hji ih he hd h

theorem Linked.exists_singleton (h : Linked parts1 parts2 i) :
    ∃ p ∈ parts1, Linked [p] parts2 i := by
  induction h with
  | meets hp hd h => exact ⟨_, hp, .meets List.mem_cons_self hd h⟩
  | next hji _ he hd h ih =>
    obtain ⟨p, hp, hlinked⟩ := ih
    exact ⟨p, hp, .next hji hlinked he hd h⟩

theorem getElem?_mid (hsplit : parts2 = pre ++ d :: post) : parts2[pre.length]? = some d := by
  rw [hsplit, List.getElem?_append_right le_rfl, Nat.sub_self]
  rfl

/-- The ranges of the second list up to the one at `i`. -/
theorem exists_lt_succ {P : ℕ → Range → Prop} (hmid : parts2[i]? = some d) :
    (∃ j e, j < i + 1 ∧ parts2[j]? = some e ∧ P j e) ↔
      (∃ j e, j < i ∧ parts2[j]? = some e ∧ P j e) ∨ P i d := by
  constructor
  · rintro ⟨j, e, hj, he, h⟩
    rcases Nat.lt_succ_iff_lt_or_eq.mp hj with hlt | rfl
    · exact Or.inl ⟨j, e, hlt, he, h⟩
    · rw [hmid, Option.some.injEq] at he
      exact Or.inr (he ▸ h)
  · rintro (⟨j, e, hj, he⟩ | h)
    · exact ⟨j, e, by omega, he⟩
    · exact ⟨i, d, by omega, hmid, h⟩

/-- A range of the first list, after the ranges `pre` of the second. -/
theorem has_foldl_mergeCpuset (hp : p.1 ≤ p.2) (hparts2 : ∀ d ∈ parts2, d.1 ≤ d.2)
    (hsplit : parts2 = pre ++ post) :
    (pre.foldl mergeCpuset p).1 ≤ (pre.foldl mergeCpuset p).2 ∧
      ∀ n, Has (pre.foldl mergeCpuset p) n ↔ Has p n ∨ ∃ j d, j < pre.length ∧
        parts2[j]? = some d ∧ Linked [p] parts2 j ∧ Has d n := by
  induction pre using List.reverseRecOn generalizing post with
  | nil => exact ⟨hp, by simp⟩
  | append_singleton pre d ih =>
    rw [List.append_assoc, List.singleton_append] at hsplit
    obtain ⟨hle, hhas⟩ := ih hsplit
    have hd : d.1 ≤ d.2 := hparts2 d (by simp [hsplit])
    have hmid := getElem?_mid hsplit
    rw [List.foldl_append, List.foldl_cons, List.foldl_nil]
    refine ⟨mergeCpuset_le hle, ?_⟩
    intro n
    -- the range so far meets the next one exactly if that one is linked
    have hlinked : Meets (pre.foldl mergeCpuset p) d ↔ Linked [p] parts2 pre.length := by
      constructor
      · rintro ⟨m, hm, hdm⟩
        rcases (hhas m).mp hm with hpm | ⟨j, e, hj, he, hlink, hem⟩
        · exact .meets List.mem_cons_self hmid ⟨m, hpm, hdm⟩
        · exact .next hj hlink he hmid ⟨m, hem, hdm⟩
      · intro hlink
        cases hlink with
        | meets hq hd' h =>
          rw [List.mem_singleton] at hq
          rw [hmid, Option.some.injEq] at hd'
          subst hq hd'
          obtain ⟨m, hpm, hdm⟩ := h
          exact ⟨m, (hhas m).mpr (Or.inl hpm), hdm⟩
        | next hj hlink he hd' h =>
          rw [hmid, Option.some.injEq] at hd'
          subst hd'
          obtain ⟨m, hem, hdm⟩ := h
          exact ⟨m, (hhas m).mpr (Or.inr ⟨_, _, hj, he, hlink, hem⟩), hdm⟩
    rw [has_mergeCpuset hle hd, hhas n, hlinked, List.length_append, List.length_singleton,
      exists_lt_succ hmid, or_assoc]

def LinkedCpu (parts1 parts2 : List Range) (n : ℕ) : Prop :=
  ∃ j d, parts2[j]? = some d ∧ Linked parts1 parts2 j ∧ Has d n

theorem mem_cpus_bases (hparts1 : ∀ p ∈ parts1, p.1 ≤ p.2) (hparts2 : ∀ d ∈ parts2, d.1 ≤ d.2) :
    n ∈ cpus (parts1.map fun p => parts2.foldl mergeCpuset p) ↔
      n ∈ cpus parts1 ∨ LinkedCpu parts1 parts2 n := by
  have hsplit : parts2 = parts2 ++ [] := (List.append_nil parts2).symm
  constructor
  · rintro ⟨r, hr, hn⟩
    obtain ⟨p, hp, rfl⟩ := List.mem_map.mp hr
    rcases ((has_foldl_mergeCpuset (hparts1 p hp) hparts2 hsplit).2 n).mp hn with
      hpn | ⟨j, d, -, hd, hlink, hdn⟩
    · exact Or.inl ⟨p, hp, hpn⟩
    · exact Or.inr ⟨j, d, hd, hlink.mono (by simpa using hp), hdn⟩
  · rintro (⟨p, hp, hpn⟩ | ⟨j, d, hd, hlink, hdn⟩)
    · refine ⟨_, List.mem_map_of_mem hp, ?_⟩
      exact ((has_foldl_mergeCpuset (hparts1 p hp) hparts2 hsplit).2 n).mpr (Or.inl hpn)
    · obtain ⟨p, hp, hlink⟩ := hlink.exists_singleton
      have hj : j < parts2.length := (List.getElem?_eq_some_iff.mp hd).1
      refine ⟨_, List.mem_map_of_mem hp, ?_⟩
      exact ((has_foldl_mergeCpuset (hparts1 p hp) hparts2 hsplit).2 n).mpr
        (Or.inr ⟨j, d, hj, hd, hlink, hdn⟩)

/-! ## The second loop -/

theorem any_cpusetIntersect (hparts : ∀ r ∈ parts, r.1 ≤ r.2) (hd : d.1 ≤ d.2) :
    parts.any (cpusetIntersect d) = true ↔ ∃ n ∈ cpus parts, Has d n := by
  rw [List.any_eq_true]
  constructor
  · rintro ⟨r, hr, hmeet⟩
    obtain ⟨n, hdn, hrn⟩ := (cpusetIntersect_iff hd (hparts r hr)).mp hmeet
    exact ⟨n, ⟨r, hr, hrn⟩, hdn⟩
  · rintro ⟨n, ⟨r, hr, hrn⟩, hdn⟩
    exact ⟨r, hr, (cpusetIntersect_iff hd (hparts r hr)).mpr ⟨n, hdn, hrn⟩⟩

/-- A range is alone if nobody before it has one of its CPUs. -/
theorem alone_iff (hd : parts2[i]? = some d) :
    Alone parts1 parts2 i ↔ ∀ n, Has d n → n ∉ cpus parts1 ∧ ¬ LinkedCpu parts1 parts2 n ∧
      ∀ j e, j < i → parts2[j]? = some e → Alone parts1 parts2 j → ¬ Has e n := by
  rw [Alone]
  constructor
  · rintro ⟨d', hd', hfirst, hlinked, halone⟩ n hn
    rw [hd, Option.some.injEq] at hd'
    subst hd'
    refine ⟨?_, ?_, ?_⟩
    · rintro ⟨p, hp, hpn⟩
      exact hfirst p hp ⟨n, hpn, hn⟩
    · rintro ⟨j, e, he, hlink, hen⟩
      exact hlinked j e he hlink ⟨n, hen, hn⟩
    · intro j e hj he halone' hen
      exact halone j e hj he halone' ⟨n, hen, hn⟩
  · intro h
    refine ⟨d, hd, ?_, ?_, ?_⟩
    · rintro p hp ⟨n, hpn, hn⟩
      exact (h n hn).1 ⟨p, hp, hpn⟩
    · rintro j e he hlink ⟨n, hen, hn⟩
      exact (h n hn).2.1 ⟨j, e, he, hlink, hen⟩
    · rintro j e hj he halone ⟨n, hen, hn⟩
      exact (h n hn).2.2 j e hj he halone hen

/-- A range meets none of the parts exactly if it is alone. -/
theorem any_iff_not_alone {parts : List Range} {i : ℕ} (hparts : ∀ r ∈ parts, r.1 ≤ r.2)
    (hle : d.1 ≤ d.2) (hd : parts2[i]? = some d)
    (hmem : ∀ n, n ∈ cpus parts ↔ (n ∈ cpus parts1 ∨ LinkedCpu parts1 parts2 n) ∨
      ∃ j e, j < i ∧ parts2[j]? = some e ∧ Alone parts1 parts2 j ∧ Has e n) :
    parts.any (cpusetIntersect d) = true ↔ ¬ Alone parts1 parts2 i := by
  rw [any_cpusetIntersect hparts hle, alone_iff hd]
  constructor
  · rintro ⟨n, hn, hdn⟩ hall
    obtain ⟨hfirst, hlinked, hother⟩ := hall n hdn
    rcases (hmem n).mp hn with (h | h) | ⟨j, e, hj, he, halone, hen⟩
    · exact hfirst h
    · exact hlinked h
    · exact hother j e hj he halone hen
  · intro hnot
    by_contra hnone
    apply hnot
    intro n hdn
    have hout : n ∉ cpus parts := fun hn => hnone ⟨n, hn, hdn⟩
    rw [hmem] at hout
    refine ⟨fun h => hout (Or.inl (Or.inl h)), fun h => hout (Or.inl (Or.inr h)), ?_⟩
    intro j e hj he halone hen
    exact hout (Or.inr ⟨j, e, hj, he, halone, hen⟩)

theorem mem_cpus_append {parts' : List Range} :
    n ∈ cpus (parts ++ parts') ↔ n ∈ cpus parts ∨ n ∈ cpus parts' := by
  simp [cpus, or_and_right, exists_or]

/-- The parts after the ranges `pre` of the second list. -/
theorem mem_cpus_foldl_pushApart {bases : List Range} (hbases : ∀ r ∈ bases, r.1 ≤ r.2)
    (hcpus : ∀ n, n ∈ cpus bases ↔ n ∈ cpus parts1 ∨ LinkedCpu parts1 parts2 n)
    (hparts2 : ∀ d ∈ parts2, d.1 ≤ d.2) (hsplit : parts2 = pre ++ post) :
    (∀ r ∈ pre.foldl pushApart bases, r.1 ≤ r.2) ∧
      ∀ n, n ∈ cpus (pre.foldl pushApart bases) ↔
        (n ∈ cpus parts1 ∨ LinkedCpu parts1 parts2 n) ∨
          ∃ j d, j < pre.length ∧ parts2[j]? = some d ∧ Alone parts1 parts2 j ∧ Has d n := by
  induction pre using List.reverseRecOn generalizing post with
  | nil => exact ⟨hbases, fun n => by simp [hcpus]⟩
  | append_singleton pre d ih =>
    rw [List.append_assoc, List.singleton_append] at hsplit
    obtain ⟨hle, hmem⟩ := ih hsplit
    have hd : d.1 ≤ d.2 := hparts2 d (by simp [hsplit])
    have hmid := getElem?_mid hsplit
    rw [List.foldl_append, List.foldl_cons, List.foldl_nil, List.length_append,
      List.length_singleton]
    have halone := any_iff_not_alone hle hd hmid hmem
    by_cases hd' : Alone parts1 parts2 pre.length
    · rw [pushApart, if_neg (by rw [halone]; exact not_not.mpr hd')]
      constructor
      · intro r hr
        rcases List.mem_append.mp hr with hr | hr
        · exact hle r hr
        · rw [List.mem_singleton] at hr
          exact hr ▸ hd
      · intro n
        have hone : n ∈ cpus [d] ↔ Alone parts1 parts2 pre.length ∧ Has d n := by
          simp [cpus, hd']
        rw [mem_cpus_append, hmem, hone, exists_lt_succ hmid, or_assoc]
    · rw [pushApart, if_pos (halone.mpr hd')]
      refine ⟨hle, ?_⟩
      intro n
      rw [hmem, exists_lt_succ hmid]
      simp only [hd', false_and, or_false]

/-- What the merged ranges have: the first list, and of the second the ranges that are linked or
alone. -/
theorem mem_mergeParts (hparts1 : ∀ p ∈ parts1, p.1 ≤ p.2) (hparts2 : ∀ d ∈ parts2, d.1 ≤ d.2) :
    (∀ r ∈ mergeParts parts1 parts2, r.1 ≤ r.2) ∧
      ∀ n, n ∈ cpus (mergeParts parts1 parts2) ↔ n ∈ cpus parts1 ∨ Kept parts1 parts2 n := by
  have hsplit : parts2 = parts2 ++ [] := (List.append_nil parts2).symm
  have hbases : ∀ r ∈ parts1.map fun p => parts2.foldl mergeCpuset p, r.1 ≤ r.2 := by
    intro r hr
    obtain ⟨p, hp, rfl⟩ := List.mem_map.mp hr
    exact (has_foldl_mergeCpuset (hparts1 p hp) hparts2 hsplit).1
  obtain ⟨hle, hmem⟩ := mem_cpus_foldl_pushApart hbases
    (fun n => mem_cpus_bases hparts1 hparts2) hparts2 hsplit
  refine ⟨hle, ?_⟩
  intro n
  rw [mergeParts, hmem]
  constructor
  · rintro ((h | ⟨j, d, hd, hlink, hdn⟩) | ⟨j, d, -, hd, halone, hdn⟩)
    · exact Or.inl h
    · exact Or.inr ⟨j, d, hd, Or.inl hlink, hdn⟩
    · exact Or.inr ⟨j, d, hd, Or.inr halone, hdn⟩
  · rintro (h | ⟨j, d, hd, hlink | halone, hdn⟩)
    · exact Or.inl (Or.inl h)
    · exact Or.inl (Or.inr ⟨j, d, hd, hlink, hdn⟩)
    · exact Or.inr ⟨j, d, (List.getElem?_eq_some_iff.mp hd).1, hd, halone, hdn⟩

/-- Nothing is lost of a second list whose ranges do not meet. -/
theorem kept_of_apart (h : parts2.Pairwise fun d e => ¬ Meets d e) :
    ∀ n ∈ cpus parts2, n ∈ cpus parts1 ∨ Kept parts1 parts2 n := by
  rintro n ⟨d, hd, hn⟩
  obtain ⟨i, hi⟩ := List.mem_iff_getElem?.mp hd
  have hapart : ∀ j e, j ≠ i → parts2[j]? = some e → ¬ Meets e d := by
    intro j e hji he hmeet
    obtain ⟨hilt, rfl⟩ := List.getElem?_eq_some_iff.mp hi
    obtain ⟨hjlt, rfl⟩ := List.getElem?_eq_some_iff.mp he
    rcases Nat.lt_or_gt_of_ne hji with hlt | hgt
    · exact List.pairwise_iff_getElem.mp h j i hjlt hilt hlt hmeet
    · exact List.pairwise_iff_getElem.mp h i j hilt hjlt hgt hmeet.symm
  right
  by_cases hlink : Linked parts1 parts2 i
  · exact ⟨i, d, hi, Or.inl hlink, hn⟩
  · refine ⟨i, d, hi, Or.inr ?_, hn⟩
    rw [Alone]
    refine ⟨d, hi, ?_, ?_, ?_⟩
    · intro p hp hmeet
      exact hlink (.meets hp hi hmeet)
    · intro j e he hj
      apply hapart j e ?_ he
      rintro rfl
      exact hlink hj
    · intro j e hji he _
      exact hapart j e (by omega) he

/-! ## The texts -/

theorem IsNumber.notMem {c : Char} (h : IsNumber text n) (hdigit : c.isDigit = false)
    (hwhite : isWhite c = false) : c ∉ text := by
  obtain ⟨before, digits, after, rfl, hbefore, hafter, -, hdigits, -⟩ := h
  intro hc
  rw [List.mem_append, List.mem_append] at hc
  rcases hc with (hc | hc) | hc
  · exact absurd (hbefore c hc) (by simp [hwhite])
  · exact absurd (hdigits c hc) (by simp [hdigit])
  · exact absurd (hafter c hc) (by simp [hwhite])

theorem IsNumber.cpusetNumber_eq (h : IsNumber text n) (hn : n < 2 ^ 32) :
    cpusetNumber text = .ok n := by
  obtain ⟨before, digits, after, rfl, hbefore, hafter, hne, hdigits, rfl⟩ := h
  have htrim : trim (before ++ digits ++ after) = digits :=
    trim_padded hbefore hafter fun c hc => not_isWhite_of_isDigit (hdigits c hc)
  have hplus : digits.head? ≠ some '+' := fun hhead =>
    absurd (hdigits '+' (List.mem_of_head? hhead)) (by decide)
  have hnumeral : SnapshotStart.numeral (String.ofList digits) =
      some (Nat.ofDigitChars 10 digits 0) := by
    unfold SnapshotStart.numeral
    rw [String.toList_ofList]
    rw [if_neg hplus, if_pos ⟨hne, List.all_eq_true.mpr hdigits⟩]
  unfold cpusetNumber parseU32
  rw [htrim, hnumeral, Option.filter_some, if_pos (by simpa using hn)]

theorem IsNumber.ne_blank (h : IsNumber text n) : ¬ Blank text := by
  obtain ⟨before, digits, after, rfl, -, -, hne, hdigits, -⟩ := h
  obtain ⟨c, hc⟩ := List.exists_mem_of_ne_nil digits hne
  intro hblank
  have hwhite := hblank c (by simp [hc])
  rw [not_isWhite_of_isDigit (hdigits c hc)] at hwhite
  cases hwhite

theorem isNumber_toString (n : ℕ) : IsNumber (toString n).toList n := by
  have hdigits : (toString n).toList = Nat.toDigits 10 n := by
    rw [Nat.toString_eq_ofList_toDigits, String.toList_ofList]
  refine ⟨[], (toString n).toList, [], by simp, ?_, ?_, ?_, ?_, ?_⟩
  · exact fun _ hc => absurd hc List.not_mem_nil
  · exact fun _ hc => absurd hc List.not_mem_nil
  · rw [hdigits]
    exact Nat.toDigits_ne_nil
  · intro c hc
    rw [hdigits] at hc
    exact Nat.isDigit_of_mem_toDigits (by omega) (by omega) hc
  · rw [hdigits, Nat.ofDigitChars_ten_toDigits]

theorem IsRange.cpusetOnePart_eq (h : IsRange text r) : cpusetOnePart text = .ok r := by
  obtain ⟨⟨hle, hlt⟩, ⟨heq, hnumber⟩ | ⟨low, high, rfl, hlow, hhigh⟩⟩ := h
  · have hsplit : text.splitOn '-' = [text] :=
      List.splitOn_eq_singleton (hnumber.notMem rfl rfl)
    unfold cpusetOnePart
    rw [hsplit]
    change (do let low ← cpusetNumber text; return (low, low)) = _
    rw [hnumber.cpusetNumber_eq (by omega)]
    exact congrArg Except.ok (Prod.ext rfl heq)
  · have hsplit : (low ++ '-' :: high).splitOn '-' = [low, high] := by
      rw [List.splitOn, List.splitOnP_append_cons _ _ (by decide)]
      change low.splitOn '-' ++ high.splitOn '-' = _
      rw [List.splitOn_eq_singleton (hlow.notMem rfl rfl),
        List.splitOn_eq_singleton (hhigh.notMem rfl rfl)]
      rfl
    unfold cpusetOnePart
    rw [hsplit]
    dsimp only
    rw [hlow.cpusetNumber_eq (by omega), hhigh.cpusetNumber_eq hlt]
    rfl

theorem IsRange.notMem_comma (h : IsRange text r) : ',' ∉ text := by
  obtain ⟨-, ⟨-, hnumber⟩ | ⟨low, high, rfl, hlow, hhigh⟩⟩ := h
  · exact hnumber.notMem rfl rfl
  · rw [List.mem_append, List.mem_cons]
    rintro (hc | hc | hc)
    · exact hlow.notMem rfl rfl hc
    · cases hc
    · exact hhigh.notMem rfl rfl hc

theorem IsRange.ne_blank (h : IsRange text r) : ¬ Blank text := by
  obtain ⟨-, ⟨-, hnumber⟩ | ⟨low, high, rfl, hlow, hhigh⟩⟩ := h
  · exact hnumber.ne_blank
  · intro hblank
    have hwhite := hblank '-' (by simp)
    cases hwhite

theorem isRange_cpusetTostring (h : Proper r) : IsRange (cpusetTostring r) r := by
  refine ⟨h, ?_⟩
  unfold cpusetTostring
  split
  · rename_i heq
    exact Or.inl ⟨heq, isNumber_toString r.1⟩
  · exact Or.inr ⟨_, _, rfl, isNumber_toString r.1, isNumber_toString r.2⟩

theorem mapM_cpusetOnePart {items : List (List Char)} (h : List.Forall₂ IsRange items rs) :
    items.mapM cpusetOnePart = .ok rs := by
  induction h with
  | nil => rfl
  | cons hitem _ ih =>
    rw [List.mapM_cons, hitem.cpusetOnePart_eq, ih]
    rfl

theorem not_blank_intercalate {items : List (List Char)} (hne : items ≠ [])
    (h : List.Forall₂ IsRange items rs) : ¬ Blank ([','].intercalate items) := by
  cases h with
  | nil => exact absurd rfl hne
  | cons hitem hitems =>
    intro hblank
    apply hitem.ne_blank
    intro c hc
    apply hblank
    cases hitems with
    | nil => simpa using hc
    | cons _ _ => simp [hc]

/-- A list is read as the ranges that it lists. -/
theorem Listing.cpusetParts_eq (h : Listing text rs) : cpusetParts text = .ok rs := by
  unfold cpusetParts
  rcases h with ⟨hblank, rfl⟩ | ⟨items, hne, rfl, hitems⟩
  · rw [if_pos (trim_eq_nil_of_blank hblank)]
  · have hcomma : ∀ item ∈ items, ',' ∉ item := by
      intro item hitem
      obtain ⟨i, hi, rfl⟩ := List.getElem_of_mem hitem
      exact (hitems.get hi (hitems.length_eq ▸ hi)).notMem_comma
    rw [if_neg fun htrim => not_blank_intercalate hne hitems (blank_of_trim_eq_nil htrim),
      List.splitOn_intercalate ',' hcomma hne, mapM_cpusetOnePart hitems]

theorem Listing.proper (h : Listing text rs) : ∀ r ∈ rs, Proper r := by
  rcases h with ⟨-, rfl⟩ | ⟨items, -, -, hitems⟩
  · exact fun r hr => absurd hr List.not_mem_nil
  · intro r hr
    obtain ⟨i, hi, rfl⟩ := List.getElem_of_mem hr
    exact (hitems.get (hitems.length_eq ▸ hi) hi).1

/-- What is printed lists the ranges. -/
theorem listing_intercalate {rs : List Range} (h : ∀ r ∈ rs, Proper r) :
    Listing ([','].intercalate (rs.map cpusetTostring)) rs := by
  cases rs with
  | nil => exact Or.inl ⟨fun _ hc => absurd hc (by simp), rfl⟩
  | cons r rs =>
    refine Or.inr ⟨(r :: rs).map cpusetTostring, by simp, rfl, ?_⟩
    rw [List.forall₂_map_left_iff, List.forall₂_same]
    intro r hr
    exact isRange_cpusetTostring (h r hr)

/-- **Merging two lists.** The result denotes the union of the two sets exactly if each CPU of
the second list is in the first one or in a range that is kept. -/
theorem merge_cpusets_union_iff {cpusets1 cpusets2 : List Char} {parts1 parts2 : List Range}
    (h1 : Listing cpusets1 parts1) (h2 : Listing cpusets2 parts2) :
    (∃ merged, mergeCpusets cpusets1 cpusets2 = .ok merged ∧
        Denotes merged (cpus parts1 ∪ cpus parts2)) ↔
      ∀ n ∈ cpus parts2, n ∈ cpus parts1 ∨ Kept parts1 parts2 n := by
  obtain ⟨hle, hmem⟩ := mem_mergeParts (fun p hp => (h1.proper p hp).1)
    (fun d hd => (h2.proper d hd).1)
  have hmerge : mergeCpusets cpusets1 cpusets2 =
      .ok ([','].intercalate ((mergeParts parts1 parts2).map cpusetTostring)) := by
    unfold mergeCpusets
    rw [h1.cpusetParts_eq, h2.cpusetParts_eq]
    rfl
  have hkept : ∀ n, Kept parts1 parts2 n → n ∈ cpus parts2 := by
    rintro n ⟨i, d, hd, -, hn⟩
    exact ⟨d, List.mem_of_getElem? hd, hn⟩
  have hproper : ∀ r ∈ mergeParts parts1 parts2, Proper r := by
    intro r hr
    refine ⟨hle r hr, ?_⟩
    -- the highest CPU of the range is one of the two lists
    have hmax : r.2 ∈ cpus (mergeParts parts1 parts2) := ⟨r, hr, hle r hr, le_rfl⟩
    rcases (hmem r.2).mp hmax with ⟨p, hp, hn⟩ | hn
    · exact lt_of_le_of_lt hn.2 (h1.proper p hp).2
    · obtain ⟨d, hd, hn⟩ := hkept r.2 hn
      exact lt_of_le_of_lt hn.2 (h2.proper d hd).2
  have hlisting := listing_intercalate hproper
  constructor
  · rintro ⟨merged, hmerged, rs, hrs, hcpus⟩ n hn
    rw [hmerge, Except.ok.injEq] at hmerged
    have hparts : rs = mergeParts parts1 parts2 := by
      have hread := hrs.cpusetParts_eq
      rw [← hmerged, hlisting.cpusetParts_eq, Except.ok.injEq] at hread
      exact hread.symm
    rw [← hmem n, ← hparts, hcpus]
    exact Or.inr hn
  · intro hall
    refine ⟨_, hmerge, _, hlisting, ?_⟩
    ext n
    rw [hmem n]
    constructor
    · rintro (hn | hn)
      · exact Or.inl hn
      · exact Or.inr (hkept n hn)
    · rintro (hn | hn)
      · exact Or.inl hn
      · exact hall n hn

/-- Two lists that overlap, one of them with blanks. -/
theorem merge_cpusets_overlapping : ∃ merged,
    mergeCpusets "0-3,8".toList " 2 - 5".toList = .ok merged ∧
      Denotes merged (cpus [(0, 3), (8, 8)] ∪ cpus [(2, 5)]) := by
  have h1 : Listing "0-3,8".toList [(0, 3), (8, 8)] :=
    @listing_intercalate [(0, 3), (8, 8)] (by decide)
  have h2 : Listing " 2 - 5".toList [(2, 5)] := by
    refine Or.inr ⟨[" 2 - 5".toList], by decide, by decide, .cons ⟨by decide, ?_⟩ .nil⟩
    refine Or.inr ⟨" 2 ".toList, " 5".toList, by decide, ?_, ?_⟩
    · exact ⟨[' '], ['2'], [' '], by decide, by decide, by decide, by decide,
        List.forall_mem_singleton.mpr (by decide), by decide⟩
    · exact ⟨[' '], ['5'], [], by decide, by decide, by decide, by decide,
        List.forall_mem_singleton.mpr (by decide), by decide⟩
  exact (merge_cpusets_union_iff h1 h2).mpr (kept_of_apart (by simp))

/-- The range that links the first range of the second list to the first list comes behind it. -/
theorem merge_cpusets_loses_cpu :
    Listing "5".toList [(5, 5)] ∧ Listing "1-3,2-5".toList [(1, 3), (2, 5)] ∧
      mergeCpusets "5".toList "1-3,2-5".toList = .ok "2-5".toList ∧
      Listing "2-5".toList [(2, 5)] ∧ 1 ∈ cpus [(1, 3), (2, 5)] ∧ 1 ∉ cpus [(2, 5)] := by
  exact ⟨@listing_intercalate [(5, 5)] (by decide),
    @listing_intercalate [(1, 3), (2, 5)] (by decide), by decide,
    @listing_intercalate [(2, 5)] (by decide), by decide, by decide⟩

end Kuasar.Cpusets

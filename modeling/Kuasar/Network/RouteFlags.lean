import Mathlib.Data.Nat.BitIndices
import Mathlib.Data.Nat.Bitwise

/-!
# Network.RouteFlags — the flags of a route as a number and as a list

The host keeps the flags of a route as a number of 32 bits, which it gets by adding up a list of
flags. The guest makes a list of the number: the flags whose bit is set in it, and a last one with
what is left of it.

What a flag is worth is said by the netlink library (`Values`). As the flags are distinct single
bits, those that are found add up to no more than the number. So the additions do not overflow and
the subtraction does not underflow, and the list adds up to the number (`route_flags_round_trip`).
-/

namespace Kuasar.RouteFlags

/-- `RouteFlag` of the netlink library. -/
inductive RouteFlag where
  | dead | pervasive | onlink | offload | linkdown | unresolved | trap | notify | cloned | equalize
  | prefixFlag | lookupTable | fibMatch | rtOffload | rtTrap | offloadFailed
  | other (value : ℕ)
  deriving DecidableEq

/-- `ALL_ROUTE_FLAGS`. -/
def allRouteFlags : List RouteFlag :=
  [.dead, .pervasive, .onlink, .offload, .linkdown, .unresolved, .trap, .notify, .cloned, .equalize,
    .prefixFlag, .lookupTable, .fibMatch, .rtOffload, .rtTrap, .offloadFailed]

/-- `u32::from` for a flag of the library: the constants are distinct single bits, and the flag for
all others carries its value. -/
structure Values where
  toU32 : RouteFlag → ℕ
  single : ∀ flag ∈ allRouteFlags, ∃ i < 32, toU32 flag = 2 ^ i
  distinct : (allRouteFlags.map toU32).Nodup
  other : ∀ value, toU32 (.other value) = value

/-- An addition that overflows has no result. -/
def checkedAdd (a b : ℕ) : Option ℕ := if a + b < 2 ^ 32 then some (a + b) else none

/-- A subtraction that underflows has no result. -/
def checkedSub (a b : ℕ) : Option ℕ := if b ≤ a then some (a - b) else none

variable (v : Values) (d : ℕ)

/-- The test of the loop of `VecRouteFlag::from`. -/
def isSet (flag : RouteFlag) : Bool := 0 < d &&& v.toU32 flag

/-- One turn of the loop, with `got` and `ret`. -/
def take (acc : ℕ × List RouteFlag) (flag : RouteFlag) : Option (ℕ × List RouteFlag) :=
  if isSet v d flag then (checkedAdd acc.1 (v.toU32 flag)).map fun got => (got, acc.2 ++ [flag])
  else some acc

/-- `VecRouteFlag::from`, in the guest. -/
def vecRouteFlag : Option (List RouteFlag) := do
  let (got, ret) ← allRouteFlags.foldlM (take v d) (0, [])
  if got ≠ d then
    let left ← checkedSub d got
    some (ret ++ [.other left])
  else some ret

/-- The loop that adds up flags. -/
def addAll (start : ℕ) (flags : List RouteFlag) : Option ℕ :=
  flags.foldlM (fun d flag => checkedAdd d (v.toU32 flag)) start

/-- `u32::from(&VecRouteFlag)`, in the host. -/
def sumFlags (flags : List RouteFlag) : Option ℕ := addAll v 0 flags

/-- What the flags add up to, without a bound. -/
def total (flags : List RouteFlag) : ℕ := (flags.map v.toU32).sum

variable {v d}

theorem addAll_eq {start : ℕ} {flags : List RouteFlag} (h : start + total v flags < 2 ^ 32) :
    addAll v start flags = some (start + total v flags) := by
  induction flags generalizing start with
  | nil => rfl
  | cons flag flags ih =>
    have htotal : total v (flag :: flags) = v.toU32 flag + total v flags := List.sum_cons
    rw [htotal, ← Nat.add_assoc] at h ⊢
    rw [addAll, List.foldlM_cons, checkedAdd, if_pos (by omega)]
    exact ih h

/-- The loop of the guest adds up the flags that are set, and keeps them in order. -/
theorem foldlM_take (flags : List RouteFlag) (got : ℕ) (ret : List RouteFlag) :
    flags.foldlM (take v d) (got, ret) = (addAll v got (flags.filter (isSet v d))).map fun got =>
      (got, ret ++ flags.filter (isSet v d)) := by
  induction flags generalizing got ret with
  | nil => simp [addAll]
  | cons flag flags ih =>
    rw [List.foldlM_cons, List.filter_cons, take]
    by_cases hset : isSet v d flag = true
    · rw [if_pos hset, if_pos hset, addAll, List.foldlM_cons]
      rcases checkedAdd got (v.toU32 flag) with _ | got'
      · rfl
      · show flags.foldlM (take v d) (got', ret ++ [flag]) = _
        rw [ih, List.append_assoc]
        rfl
    · rw [if_neg hset, if_neg hset]
      exact ih got ret

/-- Distinct single bits of a number add up to no more than the number. -/
theorem sum_le_of_bits {n : ℕ} {bits : List ℕ} (hnodup : bits.Nodup)
    (hbits : ∀ b ∈ bits, ∃ i, b = 2 ^ i ∧ n.testBit i = true) : bits.sum ≤ n := by
  have hsub : bits ⊆ n.bitIndices.map (2 ^ ·) := by
    intro b hb
    obtain ⟨i, rfl, hi⟩ := hbits b hb
    exact List.mem_map_of_mem (Nat.mem_bitIndices.mpr hi)
  obtain ⟨l, hperm, hl⟩ := List.subperm_of_subset hnodup hsub
  calc bits.sum = l.sum := hperm.sum_eq.symm
    _ ≤ (n.bitIndices.map (2 ^ ·)).sum := hl.sum_le_sum fun _ _ => Nat.zero_le _
    _ = n := Nat.sum_map_two_pow_bitIndices n

theorem total_filter_le : total v (allRouteFlags.filter (isSet v d)) ≤ d := by
  apply sum_le_of_bits
  · exact v.distinct.sublist (List.filter_sublist.map v.toU32)
  · intro b hb
    obtain ⟨flag, hflag, rfl⟩ := List.mem_map.mp hb
    obtain ⟨hmem, hset⟩ := List.mem_filter.mp hflag
    obtain ⟨i, -, hi⟩ := v.single flag hmem
    refine ⟨i, hi, ?_⟩
    have hpos : 0 < d &&& v.toU32 flag := of_decide_eq_true hset
    rw [hi, Nat.and_two_pow] at hpos
    cases hbit : d.testBit i with
    | true => rfl
    | false => simp [hbit] at hpos

/-- For all values of the flags and every number of 32 bits: the guest makes a list of it, the host
adds the list up, and the sum is the number. Nothing overflows or underflows. -/
theorem route_flags_round_trip (v : Values) (d : ℕ) (hd : d < 2 ^ 32) :
    ∃ flags, vecRouteFlag v d = some flags ∧ sumFlags v flags = some d := by
  have hle := @total_filter_le v d
  generalize hfound : allRouteFlags.filter (isSet v d) = found at hle
  have hadd : addAll v 0 found = some (total v found) := by
    rw [addAll_eq (by omega), Nat.zero_add]
  have hloop : allRouteFlags.foldlM (take v d) (0, []) = some (total v found, found) := by
    rw [foldlM_take, hfound, hadd]
    rfl
  by_cases hall : total v found = d
  · exact ⟨found, by simp [vecRouteFlag, hloop, hall], by rw [sumFlags, hadd, hall]⟩
  · refine ⟨found ++ [.other (d - total v found)], ?_, ?_⟩
    · simp [vecRouteFlag, hloop, hall, checkedSub, hle]
    · -- what is left makes up for the flags that are not set
      have hsum : total v (found ++ [.other (d - total v found)]) = d := by
        simp only [total, List.map_append, List.sum_append, List.map_cons, v.other]
        simp only [total] at hle
        simp [Nat.add_sub_cancel' hle]
      rw [sumFlags, addAll_eq (by omega), hsum, Nat.zero_add]

/-- The values that the kernel gives to the flags. -/
def kernel : Values where
  toU32
    | .dead => 0x1 | .pervasive => 0x2 | .onlink => 0x4 | .offload => 0x8 | .linkdown => 0x10
    | .unresolved => 0x20 | .trap => 0x40 | .notify => 0x100 | .cloned => 0x200
    | .equalize => 0x400 | .prefixFlag => 0x800 | .lookupTable => 0x1000 | .fibMatch => 0x2000
    | .rtOffload => 0x4000 | .rtTrap => 0x8000 | .offloadFailed => 0x20000000
    | .other value => value
  single := by decide
  distinct := by decide
  other := fun _ => rfl

/-- A flag that has a name and a bit that has none. -/
theorem route_flags_round_trip_onlink : vecRouteFlag kernel 0x84 = some [.onlink, .other 0x80] ∧
    ∃ flags, vecRouteFlag kernel 0x84 = some flags ∧ sumFlags kernel flags = some 0x84 :=
  ⟨by decide, route_flags_round_trip kernel 0x84 (by decide)⟩

end Kuasar.RouteFlags

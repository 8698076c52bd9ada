import Kuasar.Template.Lease
import Kuasar.Template.PoolIds

/-!
# Template.Collection — what a collection leaves in the pool

`gc_if_needed` and `evict_by_kind` choose candidates under the locks, sort them by age and
remove the oldest of them one by one, each by its id. Both are one sweep over the first
`n` of the sorted candidates; `sweep_removesOldest` says what such a sweep does to a pool
in which no candidate shares its id with another template. In the pools that the tasks of
`PoolTasks` reach no template that may be chosen shares its id (`count_id_of_unpinned`).

`gc_if_needed_exact` is about the collection at the water level, in every reachable pool.
`evict_by_kind_exact` is about the forced eviction, which leaves the candidates it was
asked to leave on top of what it could not evict: the bound that its target gives holds
exactly if one of the two is nothing or both fit.
-/

namespace Kuasar.TemplatePool

open Tla PoolTasks

section

variable (p : TemplatePool)

/-- The queued templates of one kind, over all keys. -/
def ofKind (kind : SnapshotType) : List PooledTemplate :=
  p.available.all.filter fun t => t.snapshotType = kind

/-- The queued templates of one kind that a forced eviction may not remove. -/
def notEvictable (kind : SnapshotType) : List PooledTemplate :=
  (p.ofKind kind).filter fun t => t ∉ p.evictCandidates kind

/-- `evict_by_kind`: the pool it leaves and the count it returns. -/
def evictByKind (removed : String → Bool) (kind : SnapshotType) (targetDepth : ℕ) :
    TemplatePool × ℕ :=
  if (p.evictCandidates kind).length ≤ targetDepth then (p, 0)
  else
    let batch := p.evictBatch kind targetDepth
    (p.sweep removed batch, (batch.filter fun t => removed t.id).length)

end

/-- Of the candidates `cs` in `p`, the `n` oldest are `gone` in `p'`, or all if there are
not as many. Nothing else is. -/
structure RemovesOldest (p p' : TemplatePool) (cs gone : List PooledTemplate) (n : ℕ) : Prop where
  queue : ∀ key, p'.available.queue key = (p.available.queue key).filter fun t => t ∉ gone
  perm : p.available.all.Perm (gone ++ p'.available.all)
  rest : p' = { p with available := p'.available }
  subset : ∀ t ∈ gone, t ∈ cs
  length : gone.length = min n cs.length
  oldest : ∀ t ∈ gone, ∀ u ∈ p'.available.all, u ∈ cs → t.createdAtSecs ≤ u.createdAtSecs

variable {p : TemplatePool} {cs batch : List PooledTemplate} {n : ℕ}

/-! ## The oldest of a list -/

/-- The first of the sorted templates are no younger than the others. -/
theorem createdAt_le_of_sorted {t u : PooledTemplate} (ht : t ∈ (sortByCreation cs).take n)
    (hu : u ∈ (sortByCreation cs).drop n) : t.createdAtSecs ≤ u.createdAtSecs := by
  have hsorted : (sortByCreation cs).Pairwise fun t u => t.createdAtSecs ≤ u.createdAtSecs :=
    List.pairwise_insertionSort _ cs
  rw [← List.take_append_drop n (sortByCreation cs)] at hsorted
  exact (List.pairwise_append.mp hsorted).2.2 t ht u hu

theorem take_sortByCreation_subperm : ((sortByCreation cs).take n).Subperm cs :=
  (List.take_sublist n _).subperm.trans (List.perm_insertionSort _ cs).subperm

theorem length_take_sortByCreation :
    ((sortByCreation cs).take n).length = min n cs.length := by
  rw [List.length_take, sortByCreation, List.length_insertionSort]

/-! ## A sweep over templates with ids of their own -/

theorem swept_true_iff {t : PooledTemplate} :
    swept (fun _ => true) batch t = true ↔ ∃ u ∈ batch, u.id = t.id := by
  simp [swept]

/-- A template whose id is queued once is the only one with it. -/
theorem eq_of_count_id {ts : List PooledTemplate} {t u : PooledTemplate}
    (h : (ts.map (·.id)).count t.id = 1) (ht : t ∈ ts) (hu : u ∈ ts) (hid : u.id = t.id) :
    u = t := by
  by_contra hne
  obtain ⟨xs, ys, rfl⟩ := List.append_of_mem ht
  -- `u` stands on one side of `t` and counts there
  have hside : u.id ∈ (xs ++ ys).map (·.id) := by
    apply List.mem_map_of_mem
    rcases List.mem_append.mp hu with hx | hy
    · exact List.mem_append_left _ hx
    · exact List.mem_append_right _ ((List.mem_cons.mp hy).resolve_left hne)
  have hpos := List.count_pos_iff.mpr hside
  rw [hid, List.map_append, List.count_append] at hpos
  rw [List.map_append, List.map_cons, List.count_append, List.count_cons_self] at h
  omega

section

variable (hsub : batch.Subperm p.available.all)
  (hid : ∀ u ∈ batch, (p.available.all.map (·.id)).count u.id = 1)

include hsub hid

/-- The sweep takes out the batch, and nothing but the batch. -/
theorem swept_eq_mem {t : PooledTemplate} (ht : t ∈ p.available.all) :
    swept (fun _ => true) batch t = true ↔ t ∈ batch := by
  rw [swept_true_iff]
  constructor
  · rintro ⟨u, hu, hut⟩
    rw [eq_of_count_id (hid u hu) (hsub.subset hu) ht hut.symm]
    exact hu
  · exact fun h => ⟨t, h, rfl⟩

theorem sweep_queue (key : TemplateKey) :
    (p.sweep (fun _ => true) batch).available.queue key =
      (p.available.queue key).filter fun t => t ∉ batch := by
  rw [sweep_eq, Queues.queue_retain]
  refine List.filter_congr fun t ht => ?_
  have hiff := swept_eq_mem hsub hid (Queues.mem_all_of_mem_queue ht)
  rw [Bool.eq_iff_iff, Bool.not_eq_true', decide_eq_true_iff, ← hiff, Bool.not_eq_true]

theorem sweep_all :
    (p.sweep (fun _ => true) batch).available.all =
      p.available.all.filter fun t => t ∉ batch := by
  rw [sweep_eq, Queues.all_retain]
  refine List.filter_congr fun t ht => ?_
  have hiff := swept_eq_mem hsub hid ht
  rw [Bool.eq_iff_iff, Bool.not_eq_true', decide_eq_true_iff, ← hiff, Bool.not_eq_true]

end

/-- Templates with ids of their own are queued once. -/
theorem filter_mem_perm {ts : List PooledTemplate} (hsub : batch.Subperm ts)
    (hid : ∀ u ∈ batch, (ts.map (·.id)).count u.id = 1) :
    (ts.filter fun t => t ∈ batch).Perm batch := by
  have hone : ∀ t ∈ batch, ts.count t ≤ 1 := by
    intro t ht
    rw [← hid t ht]
    exact List.count_le_count_map
  refine List.perm_iff_count.mpr fun t => ?_
  by_cases ht : t ∈ batch
  · rw [List.count_filter (by simpa using ht)]
    have hle := hsub.count_le t
    have hpos := List.count_pos_iff.mpr ht
    have := hone t ht
    omega
  · rw [List.count_eq_zero.mpr ht, List.count_eq_zero]
    simp [ht]

theorem sweep_removesOldest (hcs : cs.Sublist p.available.all)
    (hid : ∀ t ∈ cs, (p.available.all.map (·.id)).count t.id = 1) (n : ℕ) :
    RemovesOldest p (p.sweep (fun _ => true) ((sortByCreation cs).take n)) cs
      ((sortByCreation cs).take n) n := by
  have hsub : ((sortByCreation cs).take n).Subperm p.available.all :=
    take_sortByCreation_subperm.trans hcs.subperm
  have hid' : ∀ t ∈ (sortByCreation cs).take n, (p.available.all.map (·.id)).count t.id = 1 :=
    fun t ht => hid t (mem_of_mem_take_sortByCreation ht)
  have hall := sweep_all hsub hid'
  refine ⟨sweep_queue hsub hid', ?_, ?_, fun t ht => mem_of_mem_take_sortByCreation ht,
    length_take_sortByCreation, ?_⟩
  · rw [hall]
    have hsplit := List.filter_append_perm (fun t => decide (t ∈ (sortByCreation cs).take n))
      p.available.all
    have hnot : (fun t => !decide (t ∈ (sortByCreation cs).take n)) =
        fun t => decide (t ∉ (sortByCreation cs).take n) := by
      funext t
      exact (decide_not ..).symm
    rw [hnot] at hsplit
    exact hsplit.symm.trans ((filter_mem_perm hsub hid').append_right _)
  · rw [sweep_eq]
  · -- a candidate that is still there is behind the ones that were taken
    intro t ht u hu hcu
    rw [hall, List.mem_filter, decide_eq_true_iff] at hu
    have hsorted : u ∈ sortByCreation cs := (List.perm_insertionSort _ cs).mem_iff.mpr hcu
    rw [← List.take_append_drop n (sortByCreation cs), List.mem_append] at hsorted
    exact createdAt_le_of_sorted ht (hsorted.resolve_left hu.2)

/-- A sweep over nothing. -/
theorem removesOldest_zero : RemovesOldest p p cs [] 0 where
  queue key := by simp
  perm := .refl _
  rest := rfl
  subset t ht := absurd ht (List.not_mem_nil)
  length := by simp
  oldest t ht := absurd ht (List.not_mem_nil)

/-! ## The collection at the water level -/

/-- No restore of the template is in flight, no sandbox references it, and it is not a WarmFork
template that is lent exclusively. -/
def Eligible (p : TemplatePool) (t : PooledTemplate) : Prop :=
  p.inFlightRestores.count t.id = 0 ∧ p.inUseCount.count t.id = 0 ∧
    ¬ (t.snapshotType = .warmFork ∧ p.leaseMode = .exclusive)

instance (p : TemplatePool) (t : PooledTemplate) : Decidable (p.Eligible t) :=
  inferInstanceAs (Decidable (_ ∧ _ ∧ ¬ _))

theorem gcCandidates_eq : p.gcCandidates = p.available.all.filter p.Eligible := by
  unfold gcCandidates
  refine List.filter_congr fun t _ => ?_
  have hmode : p.leaseMode = .exclusive ↔ p.leaseMode ≠ .shared := by
    cases p.leaseMode <;> decide
  rw [Bool.eq_iff_iff, decide_eq_true_iff, Eligible, Tally.count_eq_zero, Tally.count_eq_zero,
    hmode, ← and_assoc, ← idle_iff]
  simp [imp_iff_not_or]

/-- **Collection.** In every pool that the tasks reach, `gc_if_needed` removes the oldest of
the eligible templates: as many as there are above the watermark, or all of them. None that
it removes is being restored, referenced, or a WarmFork template that is lent exclusively. -/
theorem gc_if_needed_exact (s : St) (h : Reachable Init (AnyStep next) s) :
    ∃ gone,
      RemovesOldest s.shared.pool (s.shared.pool.gcIfNeeded fun _ => true)
        (s.shared.pool.available.all.filter s.shared.pool.Eligible) gone
        (s.shared.pool.totalDepth - s.shared.pool.gcWatermark) ∧
      ∀ t ∈ gone, s.shared.pool.Eligible t := by
  rw [← gcCandidates_eq]
  unfold gcIfNeeded
  split
  · rename_i hbelow
    refine ⟨[], ?_, by simp⟩
    rw [Nat.sub_eq_zero_of_le hbelow]
    exact removesOldest_zero
  · have heligible : ∀ t ∈ s.shared.pool.gcCandidates,
        t ∈ s.shared.pool.available.all ∧ s.shared.pool.Eligible t := by
      intro t ht
      rw [gcCandidates_eq, List.mem_filter, decide_eq_true_iff] at ht
      exact ht
    have hid : ∀ t ∈ s.shared.pool.gcCandidates, s.shared.ids.count t.id = 1 := by
      intro t ht
      obtain ⟨hq, hpin, -⟩ := heligible t ht
      exact count_id_of_unpinned h hq (Tally.count_eq_zero.mp hpin)
    have hremoves := sweep_removesOldest (p := s.shared.pool) List.filter_sublist hid
      (s.shared.pool.totalDepth - s.shared.pool.gcWatermark)
    exact ⟨_, hremoves, fun t ht => (heligible t (hremoves.subset t ht)).2⟩

/-- An Environment template of the key `k`. -/
def aged (id : String) (secs : ℕ) : PooledTemplate :=
  { id := id, key := ⟨"k"⟩, snapshotType := .environment, createdAtSecs := secs }

/-- A pool with these templates in which a restore of each of `restoring` is in flight. -/
def poolOf (ts : List PooledTemplate) (restoring : List String) (gcWatermark : ℕ) :
    TemplatePool :=
  ⟨ts.foldl (fun q t => q.pushBack t.key t) .empty, restoring.foldl Tally.incr .empty, .empty,
    .empty, 4, 4, gcWatermark, .shared, true⟩

/-- No task works on the pool. -/
def quietly (p : TemplatePool) : St := ⟨⟨p, [], fun _ => some .environment⟩, []⟩

/-- Three templates above a watermark of one; the oldest is being restored. -/
def crowded : St :=
  quietly (poolOf [aged "t1" 3, aged "t2" 1, aged "t3" 2] ["t2"] 1)

theorem crowded_init : Init crowded := by
  refine ⟨by simp [crowded, quietly], by decide, ?_⟩
  decide

theorem gc_if_needed_crowded :
    ∃ gone, RemovesOldest crowded.shared.pool (crowded.shared.pool.gcIfNeeded fun _ => true)
      (crowded.shared.pool.available.all.filter crowded.shared.pool.Eligible) gone 2 ∧
        gone.length = 2 := by
  obtain ⟨gone, hgone, -⟩ := gc_if_needed_exact crowded (.init crowded_init)
  exact ⟨gone, hgone, hgone.length⟩

/-! ## The forced eviction -/

section

variable {kind : SnapshotType} {target : ℕ}

theorem evictCandidates_eq :
    p.evictCandidates kind = (p.ofKind kind).filter fun t => t ∈ p.evictCandidates kind := by
  unfold ofKind
  rw [List.filter_filter]
  conv_lhs => unfold evictCandidates
  refine List.filter_congr fun t ht => ?_
  rw [Bool.eq_iff_iff, Bool.and_eq_true, decide_eq_true_iff, decide_eq_true_iff]
  constructor
  · intro hc
    have hmem : t ∈ p.evictCandidates kind := List.mem_filter.mpr ⟨ht, hc⟩
    exact ⟨hmem, (mem_evictCandidates hmem).2.1⟩
  · rintro ⟨hc, -⟩
    exact (List.mem_filter.mp hc).2

theorem length_ofKind :
    (p.ofKind kind).length = (p.notEvictable kind).length + (p.evictCandidates kind).length := by
  have hsplit := List.filter_append_perm (fun t => decide (t ∈ p.evictCandidates kind))
    (p.ofKind kind)
  have hlen := hsplit.length_eq
  rw [List.length_append, ← evictCandidates_eq] at hlen
  simp only [notEvictable, decide_not]
  omega

theorem RemovesOldest.length_ofKind {p' : TemplatePool} {gone : List PooledTemplate}
    (h : RemovesOldest p p' (p.evictCandidates kind) gone n) :
    (p.ofKind kind).length = gone.length + (p'.ofKind kind).length := by
  have hgone : gone.filter (fun t => t.snapshotType = kind) = gone :=
    List.filter_eq_self.mpr fun t ht => by
      simpa using (mem_evictCandidates (h.subset t ht)).2.1
  have hperm := (h.perm.filter fun t => decide (t.snapshotType = kind)).length_eq
  rw [List.filter_append, List.length_append, hgone] at hperm
  exact hperm

theorem evictByKind_removesOldest (target : ℕ)
    (hid : ∀ t ∈ p.evictCandidates kind, (p.available.all.map (·.id)).count t.id = 1) :
    ∃ gone, RemovesOldest p (p.evictByKind (fun _ => true) kind target).1
        (p.evictCandidates kind) gone ((p.evictCandidates kind).length - target) ∧
      (p.evictByKind (fun _ => true) kind target).2 = gone.length := by
  unfold evictByKind
  split
  · rename_i hfew
    refine ⟨[], ?_, rfl⟩
    rw [Nat.sub_eq_zero_of_le hfew]
    exact removesOldest_zero
  · refine ⟨p.evictBatch kind target, ?_, by simp⟩
    exact sweep_removesOldest List.filter_sublist hid _

/-- What stays of the kind is what could not be evicted and as many of the others as the
target allows. That is within the larger of the two exactly if one of them is nothing or
both fit. -/
theorem remaining_le_iff (held evictable target : ℕ) :
    held + min target evictable ≤ max target held ↔
      held = 0 ∨ target = 0 ∨ evictable = 0 ∨ held + evictable ≤ target := by
  omega

/-- **Forced eviction.** In every pool that the tasks reach, `evict_by_kind` removes the
oldest of the templates it may evict, returns how many of the kind disappeared, and leaves
what it may not evict and up to the target of the others. -/
theorem evict_by_kind_exact (s : St) (h : Reachable Init (AnyStep next) s) (kind : SnapshotType)
    (target : ℕ) :
    let p := s.shared.pool
    let r := p.evictByKind (fun _ => true) kind target
    (∃ gone, RemovesOldest p r.1 (p.evictCandidates kind) gone
      ((p.evictCandidates kind).length - target)) ∧
    r.2 + (r.1.ofKind kind).length = (p.ofKind kind).length ∧
    (r.1.ofKind kind).length =
      (p.notEvictable kind).length + min target (p.evictCandidates kind).length ∧
    ((r.1.ofKind kind).length ≤ max target (p.notEvictable kind).length ↔
      (p.notEvictable kind).length = 0 ∨ target = 0 ∨ (p.evictCandidates kind).length = 0 ∨
        (p.ofKind kind).length ≤ target) := by
  intro p r
  have hid : ∀ t ∈ p.evictCandidates kind, s.shared.ids.count t.id = 1 := by
    intro t ht
    obtain ⟨hq, -, hpin⟩ := mem_evictCandidates ht
    exact count_id_of_unpinned h hq hpin
  obtain ⟨gone, hgone, hcount⟩ := evictByKind_removesOldest target hid
  have hkind : (p.ofKind kind).length = gone.length + (r.1.ofKind kind).length :=
    hgone.length_ofKind
  have hsplit : (p.ofKind kind).length = _ := length_ofKind
  have hlen := hgone.length
  have hleft : (r.1.ofKind kind).length =
      (p.notEvictable kind).length + min target (p.evictCandidates kind).length := by
    omega
  refine ⟨⟨gone, hgone⟩, ?_, hleft, ?_⟩
  · rw [hcount, hkind]
  · rw [hleft, remaining_le_iff, hsplit]

end

theorem evict_by_kind_crowded :
    let r := crowded.shared.pool.evictByKind (fun _ => true) .environment 0
    r.2 + (r.1.ofKind .environment).length = 3 ∧ (r.1.ofKind .environment).length = 1 := by
  obtain ⟨-, hcount, hleft, -⟩ :=
    evict_by_kind_exact crowded (.init crowded_init) .environment 0
  exact ⟨hcount, hleft⟩

/-- Two templates, one of them being restored. A forced eviction down to one removes
nothing: the other is one candidate, and one is what it was asked to leave. -/
theorem evict_by_kind_exceeds_target :
    ∃ s : St, Reachable Init (AnyStep next) s ∧ ∃ kind target,
      (s.shared.pool.notEvictable kind).length = 1 ∧ target = 1 ∧
        ((s.shared.pool.evictByKind (fun _ => true) kind target).1.ofKind kind).length = 2 := by
  refine ⟨quietly (poolOf [aged "t1" 1, aged "t2" 2] ["t1"] 10), .init ?_, .environment, 1, ?_,
    rfl, ?_⟩
  · exact ⟨by simp [quietly], by decide, by decide⟩
  · decide
  · decide

end Kuasar.TemplatePool

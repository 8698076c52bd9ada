import Kuasar.Template.PoolTasks

/-!
# Template.PoolIds — no id is queued twice

The tasks of `PoolTasks` from any number of idle ones. A template that is taken out of
the pool stays out until it is put back, and a template that is added has a fresh id, so
an id is in the queues at most once. The one exception is a template that was pinned
under a key whose latest template changed type in between: such a pin is never taken back
(`Stranded`), the template is still queued when its lease puts it back, and the pin keeps
it from being chosen for deletion for good.

`Tracked` and `Apart` are the layers of the invariant that hold in every run; what the
safety of deletions adds to them needs conditions on the steps.
-/

namespace Kuasar.PoolTasks

open Tla

/-- The pool and its tasks. -/
abbrev St := Sys Shared Pc

/-- A restore pin on a WarmFork template. Only Environment leases take pins back. -/
def Stranded (s : Shared) (id : String) : Prop :=
  s.pool.inFlightRestores.entry id ≠ none ∧ s.kinds id = some .warmFork

/-- Any number of idle tasks over a pool with any counters, in which no id occurs
twice. -/
def Init : StatePred St := fun s =>
  (∀ l ∈ s.tasks, l = .idle) ∧ s.shared.ids.Nodup ∧
    ∀ t ∈ s.shared.queued, s.shared.kinds t.id = some t.snapshotType

/-- Task `i` takes a step with effect `e`. -/
def next : ℕ × Effect → Action St := fun a => TaskStep (Step a.2) a.1

/-! ## The outline -/

/-- The shared layer: every queued template has the type its id was registered
with, and no id is queued twice. -/
structure SharedInv (s : Shared) : Prop where
  registered : ∀ t ∈ s.queued, s.kinds t.id = some t.snapshotType
  once : ∀ id, Stranded s id ∨ s.ids.count id ≤ 1

/-- What a task has in hand, against the queues. -/
structure Tracked (s : Shared) (l : Pc) : Prop where
  registered : ∀ t ∈ l.mentions, s.kinds t.id = some t.snapshotType
  absent : ∀ t, l.owned = some t → Stranded s t.id ∨ t.id ∉ s.ids
  borrowed : ∀ t, l.borrowed = some t → t.snapshotType = .warmFork →
    s.pool.leaseMode = .shared ∨ Stranded s t.id
  returning : ∀ t, l.returning = some t → t.snapshotType = .warmFork ∧ s.pool.leaseMode ≠ .shared
  adding : ∀ t, l.adding = some t → s.pool.idle t = true ∧ t.id ∉ s.ids

/-- What a task has in hand, against another task. -/
structure Apart (s : Shared) (l m : Pc) : Prop where
  owned : ∀ t u, l.owned = some t → m.owned = some u → Stranded s t.id ∨ t.id ≠ u.id
  adding : ∀ t, l.adding = some t → ∀ u ∈ m.mentions, u.id ≠ t.id

theorem init_sharedInv {s : St} (h : Init s) : SharedInv s.shared :=
  ⟨h.2.2, fun id => Or.inr (List.nodup_iff_count_le_one.mp h.2.1 id)⟩

/-! ## Stability -/

section

variable {e : Effect} {s s' : Shared} {l l' m n : Pc}

variable {t : PooledTemplate} {id : String}

/-- What the next step files in the pool is in no queue yet. -/
theorem Tracked.absent_of_pushes (hl : Tracked s l) (h : l.pushes = some t) :
    Stranded s t.id ∨ t.id ∉ s.ids := by
  cases l with
  | putBack u => exact hl.absent t h
  | releasePush u popped =>
    cases popped with
    | true => exact hl.absent t h
    | false =>
      obtain ⟨hkind, hmode⟩ := hl.returning t h
      exact Or.inl ((hl.borrowed t h hkind).resolve_left hmode)
  | addPush new => exact Or.inr (hl.adding t h).2
  | _ => simp at h

theorem mem_mentions_of_owned (h : l.owned = some t) : t ∈ l.mentions := by
  cases l with
  | lease u popped | releaseMarker u popped | releasePush u popped => cases popped <;> simp_all
  | _ => simp_all

theorem mem_ids (h : t ∈ s.queued) : t.id ∈ s.ids := List.mem_map_of_mem h

theorem SharedSpec.stranded (h : SharedSpec e s l s') (hl : Tracked s l) (hid : Stranded s id) :
    Stranded s' id := by
  refine ⟨fun hnone => ?_, h.kinds id _ hid.2⟩
  obtain ⟨t, ht, rfl, henv⟩ := h.unpin id hid.1 hnone
  have hkind := (hl.registered t ht).symm.trans hid.2
  rw [henv] at hkind
  simp at hkind

theorem SharedSpec.inv (h : SharedSpec e s l s') (hs : SharedInv s) (hl : Tracked s l) :
    SharedInv s' := by
  refine ⟨?_, ?_⟩
  · intro t ht
    rcases h.queued t ht with hq | hp
    · exact h.kinds _ _ (hs.registered t hq)
    · exact h.kinds _ _ (hl.registered t (mem_mentions_of_pushes hp))
  · intro id
    by_cases hstr : Stranded s id
    · exact Or.inl (h.stranded hl hstr)
    · have hone := (hs.once id).resolve_left hstr
      have hcount := h.counted id
      refine Or.inr ?_
      split at hcount
      · -- the step files `id`, which no queue had
        rename_i hpush
        obtain ⟨t, ht, rfl⟩ := Option.map_eq_some_iff.mp hpush
        have hzero := List.count_eq_zero.mpr ((hl.absent_of_pushes ht).resolve_left hstr)
        omega
      · omega

/-- What a task files under the id of a template that another task owns is stranded. -/
theorem Apart.stranded_of_pushes (hlm : Apart s l m) (hl : Tracked s l) {u : PooledTemplate}
    (ht : m.owned = some t) (hpush : l.pushes = some u) (hut : u.id = t.id) : Stranded s t.id := by
  cases l with
  | putBack v =>
    cases hpush
    exact hut ▸ (hlm.owned _ _ rfl ht).resolve_right (not_not.mpr hut)
  | releasePush v popped =>
    cases hpush
    cases popped with
    | true => exact hut ▸ (hlm.owned _ _ rfl ht).resolve_right (not_not.mpr hut)
    | false =>
      obtain ⟨hkind, hmode⟩ := hl.returning _ rfl
      exact hut ▸ (hl.borrowed _ rfl hkind).resolve_left hmode
  | addPush new =>
    cases hpush
    exact absurd hut.symm (hlm.adding _ rfl t (mem_mentions_of_owned ht))
  | _ => simp at hpush

/-- What a task has in hand is kept by the steps of the others. -/
theorem SharedSpec.tracked_other (h : SharedSpec e s l s') (hl : Tracked s l) (hm : Tracked s m)
    (hlm : Apart s l m) (hml : Apart s m l) : Tracked s' m := by
  refine ⟨?_, ?_, ?_, ?_, ?_⟩
  · exact fun t ht => h.kinds _ _ (hm.registered t ht)
  · intro t ht
    rcases hm.absent t ht with hstr | habs
    · exact Or.inl (h.stranded hl hstr)
    · by_cases hid : t.id ∈ s'.ids
      · -- the step filed a template with the id of `t`
        obtain ⟨u, hu, hut⟩ := List.mem_map.mp hid
        have hpush := (h.queued u hu).resolve_left fun hq => habs (hut ▸ mem_ids hq)
        exact Or.inl (h.stranded hl (hlm.stranded_of_pushes hl ht hpush hut))
      · exact Or.inr hid
  · intro t ht hkind
    rw [h.leaseMode]
    exact (hm.borrowed t ht hkind).imp id (h.stranded hl)
  · intro t ht
    rw [h.leaseMode]
    exact hm.returning t ht
  · intro t ht
    obtain ⟨hidle, habs⟩ := hm.adding t ht
    refine ⟨?_, ?_⟩
    · rcases h.pin t hidle with hidle' | he
      · exact hidle'
      · obtain ⟨u, hut, hq | hu⟩ := h.taken t.id he
        · exact absurd (hut ▸ mem_ids hq) habs
        · exact absurd hut (hml.adding t ht u hu)
    · intro hid
      obtain ⟨u, hu, hut⟩ := List.mem_map.mp hid
      rcases h.queued u hu with hq | hp
      · exact habs (hut ▸ mem_ids hq)
      · exact hml.adding t ht u (mem_mentions_of_pushes hp) hut

/-- What two tasks have in hand is kept apart by the steps of a third. -/
theorem SharedSpec.apart_others (h : SharedSpec e s l s') (hl : Tracked s l)
    (hmn : Apart s m n) : Apart s' m n where
  owned t u ht hu := (hmn.owned t u ht hu).imp_left (h.stranded hl)
  adding := hmn.adding

/-! ## The task that moves -/

/-- A template that a step takes out of the pool is in no queue afterwards. -/
theorem SharedInv.absent_of_popped (hs : SharedInv s) (h : s'.ids.count id < s.ids.count id) :
    Stranded s id ∨ id ∉ s'.ids := by
  rcases hs.once id with hstr | hone
  · exact Or.inl hstr
  · exact Or.inr (List.count_eq_zero.mp (by omega))

/-- A task that still has a template in hand did not just file one. -/
theorem TaskSpec.notMem_ids (ht : TaskSpec e s l s' l') (h : SharedSpec e s l s')
    (hne : l' ≠ .idle) (hid : id ∉ s.ids) : id ∉ s'.ids := by
  intro hid'
  obtain ⟨u, hu, rfl⟩ := List.mem_map.mp hid'
  apply hid
  apply mem_ids
  by_cases hpush : l.pushes = none
  · exact (h.queued u hu).resolve_right fun hp => absurd (hpush.symm.trans hp) (by simp)
  · exact (ht.pushed hpush).resolve_left hne u hu

/-- What is about to be added was idle and in no queue before the step. -/
theorem TaskSpec.adding_idle (ht : TaskSpec e s l s' l') (hs : SharedInv s) (hl : Tracked s l)
    (hadd : l'.adding = some t) : s.pool.idle t = true ∧ t.id ∉ s.ids := by
  rcases ht.adding t hadd with ha | ⟨hfresh, hidle⟩
  · exact hl.adding t ha
  · refine ⟨hidle, fun hid => ?_⟩
    -- an id that is queued is registered
    obtain ⟨u, hu, hut⟩ := List.mem_map.mp hid
    have := hs.registered u hu
    rw [hut, hfresh] at this
    simp at this

variable (ht : TaskSpec e s l s' l') (h : SharedSpec e s l s') (hl : Tracked s l)

include ht h hl

theorem TaskSpec.tracked (hs : SharedInv s) : Tracked s' l' := by
  refine ⟨?_, ?_, ?_, ?_, ?_⟩
  · intro t hmt
    rcases ht.mentions t hmt with hm | hq | ⟨-, -, hk⟩
    · exact h.kinds _ _ (hl.registered t hm)
    · exact h.kinds _ _ (hs.registered t hq)
    · exact hk
  · intro t hown
    have hne : l' ≠ .idle := by
      rintro rfl
      simp at hown
    rcases ht.owned t hown with ho | ⟨-, -, hlt⟩
    · exact (hl.absent t ho).imp (h.stranded hl) (ht.notMem_ids h hne)
    · exact (hs.absent_of_popped hlt).imp_left (h.stranded hl)
  · intro t hb hkind
    rcases ht.borrowed t hb with hb' | ⟨hq, hmode | hpin⟩
    · rw [h.leaseMode]
      exact (hl.borrowed t hb' hkind).imp id (h.stranded hl)
    · exact Or.inl hmode
    · exact Or.inr ⟨hpin, hkind ▸ h.kinds _ _ (hs.registered t hq)⟩
  · intro t hret
    rw [h.leaseMode]
    rcases ht.returning t hret with hr | hr
    · exact hl.returning t hr
    · exact hr
  · intro t hadd
    have hne : l' ≠ .idle := by
      rintro rfl
      simp at hadd
    obtain ⟨hidle, habs⟩ := ht.adding_idle hs hl hadd
    refine ⟨?_, ht.notMem_ids h hne habs⟩
    rcases h.pin t hidle with hidle' | he
    · exact hidle'
    · rw [(ht.taking t.id he).2] at hadd
      simp at hadd

theorem TaskSpec.apart_left (hm : Tracked s m) (hlm : Apart s l m) : Apart s' l' m := by
  refine ⟨?_, ?_⟩
  · intro t u hown hu
    rcases ht.owned t hown with ho | ⟨-, hq, -⟩
    · exact (hlm.owned t u ho hu).imp_left (h.stranded hl)
    · by_cases htu : t.id = u.id
      · refine Or.inl (h.stranded hl ?_)
        exact htu ▸ (hm.absent u hu).resolve_right fun habs => habs (htu ▸ mem_ids hq)
      · exact Or.inr htu
  · intro t hadd u hu
    rcases ht.adding t hadd with ha | ⟨hfresh, -⟩
    · exact hlm.adding t ha u hu
    · intro hut
      have := hm.registered u hu
      rw [hut, hfresh] at this
      simp at this

theorem TaskSpec.apart_right (hm : Tracked s m) (hml : Apart s m l) : Apart s' m l' := by
  refine ⟨?_, ?_⟩
  · intro t u hown hu
    rcases ht.owned u hu with ho | ⟨-, hq, -⟩
    · exact (hml.owned t u hown ho).imp_left (h.stranded hl)
    · by_cases htu : t.id = u.id
      · refine Or.inl (h.stranded hl ?_)
        exact (hm.absent t hown).resolve_right fun habs => habs (htu ▸ mem_ids hq)
      · exact Or.inr htu
  · intro t hadd u hu
    rcases ht.mentions u hu with hmu | hq | ⟨-, hfresh, -⟩
    · exact hml.adding t hadd u hmu
    · exact fun hut => (hm.adding t hadd).2 (hut ▸ mem_ids hq)
    · intro hut
      have := hm.registered t (mem_mentions_of_adding hadd)
      rw [← hut, hfresh] at this
      simp at this

end

/-! ## In every run -/

/-- The invariant. -/
abbrev IdInv : StatePred St := Outline SharedInv Tracked Apart

theorem init_idInv (s : St) (h : Init s) : IdInv s := by
  refine Outline.of_all h.1 (init_sharedInv h) ?_ ?_
  · constructor <;> simp
  · constructor <;> simp

theorem step_idInv (s s' : St) (hn : AnyStep next s s') (hi : IdInv s) : IdInv s' := by
  obtain ⟨⟨i, e⟩, l, l', hl, hstep, hset⟩ := hn
  have h := hstep.sharedSpec
  have ht := hstep.taskSpec
  have hself := hi.each i l hl
  refine Outline.step hset (h.inv hi.shared hself) (ht.tracked h hself hi.shared) ?_ ?_ ?_
  · intro j m hj hm
    exact h.tracked_other hself (hi.each j m hm) (hi.apart i j l m hj.symm hl hm)
      (hi.apart j i m l hj hm hl)
  · intro j m hj hm
    exact ⟨ht.apart_left h hself (hi.each j m hm) (hi.apart i j l m hj.symm hl hm),
      ht.apart_right h hself (hi.each j m hm) (hi.apart j i m l hj hm hl)⟩
  · intro j k m n hjk _ _ hm hn
    exact h.apart_others hself (hi.apart j k m n hjk hm hn)

/-- A queued template that no restore pins shares its id with no other queued template. -/
theorem count_id_of_unpinned {s : St} (h : Reachable Init (AnyStep next) s) {t : PooledTemplate}
    (ht : t ∈ s.shared.queued) (hpin : s.shared.pool.inFlightRestores.entry t.id = none) :
    s.shared.ids.count t.id = 1 := by
  have hi := h.invariant init_idInv step_idInv
  have hle := (hi.shared.once t.id).resolve_left fun hstr => hstr.1 hpin
  have hpos := List.count_pos_iff.mpr (mem_ids ht)
  omega

end Kuasar.PoolTasks

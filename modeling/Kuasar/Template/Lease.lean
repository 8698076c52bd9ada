import Kuasar.Template.Pool

/-!
# Template.Lease — acquisitions and give-backs as sequential calls

The operations of the pool run to their end with no other task in between: an
acquisition with its consumed marker, the end of a lease, and the water-level
collection that giving back a last count triggers. Whether a file system call
succeeds is an argument.

`Same` compares two pools by what they count and queue. The lemmas say what a
call leaves behind up to `Same`; what the collection leaves behind is decided by
`Collects`, whether it has anything to remove.
-/

namespace Kuasar.TemplatePool

open Queues

/-! ## Calls -/

section

variable (p : TemplatePool)

/-- An acquisition: the section that takes the template and, if it was taken out,
the consumed marker. Without the marker the template goes back. -/
def acquireWith (op : Take) (marker : Bool) : TemplatePool × Option PooledTemplate :=
  match p.take op with
  | none => (p, none)
  | some (t, p') => if op.pops && !marker then (p'.pushBack t, none) else (p', some t)

/-- The removals of one collection: a template whose directory could be removed
leaves the queues. -/
def sweep (removed : String → Bool) (batch : List PooledTemplate) : TemplatePool :=
  batch.foldl (fun p t => if removed t.id then p.dequeue t.id else p) p

/-- `gc_if_needed`. -/
def gcIfNeeded (removed : String → Bool) : TemplatePool :=
  if p.totalDepth ≤ p.gcWatermark then p else p.sweep removed (p.gcBatch p.totalDepth)

/-- `end_restore`. -/
def endRestoreCall (removed : String → Bool) (id : String) : TemplatePool :=
  if (p.endRestore id).2 then (p.endRestore id).1.gcIfNeeded removed else (p.endRestore id).1

/-- `deref`. -/
def derefCall (removed : String → Bool) (id : String) : TemplatePool :=
  if (p.deref id).2 then (p.deref id).1.gcIfNeeded removed else (p.deref id).1

/-- `TemplateLease::complete`. -/
def leaseComplete (removed : String → Bool) (t : PooledTemplate) : TemplatePool :=
  match p.leaseKind t with
  | some .sharedLease => p.endRestoreCall removed t.id
  | _ => p

/-- `TemplateLease::fail`. -/
def leaseFail (removed : String → Bool) (t : PooledTemplate) : TemplatePool :=
  match p.leaseKind t with
  | some .sharedLease => p.endRestoreCall removed t.id
  | some .sharedRef => p.derefCall removed t.id
  | some .exclusive => p.pushBack t
  | none => p

end

/-! ## Comparing pools -/

/-- The two pools agree on every queue and every counter. -/
structure Same (p p' : TemplatePool) : Prop where
  queue : ∀ key, p'.available.queue key = p.available.queue key
  inFlightRestores : p'.inFlightRestores = p.inFlightRestores
  inUseCount : p'.inUseCount = p.inUseCount
  inFlightRefills : p'.inFlightRefills = p.inFlightRefills

def Collects (removed : String → Bool) (p : TemplatePool) : Prop :=
  p.gcWatermark < p.totalDepth ∧ ∃ t ∈ p.gcBatch p.totalDepth, removed t.id = true

/-- Every template is filed under its own key, and no id is filed twice. -/
structure WellFiled (p : TemplatePool) : Prop where
  key : ∀ key, ∀ t ∈ p.available.queue key, t.key = key
  nodup : (p.available.all.map (·.id)).Nodup

variable {p p' : TemplatePool} {removed : String → Bool} {t : PooledTemplate} {id : String}

theorem Same.refl (p : TemplatePool) : Same p p := ⟨fun _ => rfl, rfl, rfl, rfl⟩

/-! ## The water-level collection -/

/-- The templates a sweep over `batch` removes. -/
def swept (removed : String → Bool) (batch : List PooledTemplate) (t : PooledTemplate) : Bool :=
  batch.any fun u => u.id == t.id && removed u.id

theorem sweep_eq (batch : List PooledTemplate) :
    p.sweep removed batch =
      { p with available := p.available.retain fun t => !swept removed batch t } := by
  induction batch generalizing p with
  | nil => simp [sweep, swept, retain_true]
  | cons u batch ih =>
    have hcons : p.sweep removed (u :: batch) =
        (if removed u.id then p.dequeue u.id else p).sweep removed batch := rfl
    rw [hcons, ih]
    by_cases hu : removed u.id = true
    · have hret : ∀ t : PooledTemplate, ((t.id != u.id) && !swept removed batch t) =
          !swept removed (u :: batch) t := by
        intro t
        by_cases htu : t.id = u.id
        · simp [swept, hu, htu]
        · have hne : (t.id != u.id) = true := by simpa using htu
          have heq : (u.id == t.id) = false := by simpa using fun h => htu h.symm
          simp [swept, hne, heq]
      simp only [hu, if_true, dequeue, retain_retain, hret]
    · have hret : ∀ t : PooledTemplate, swept removed (u :: batch) t = swept removed batch t := by
        intro t
        simp [swept, hu]
      simp only [hu, if_false, hret, Bool.false_eq_true]

theorem gcIfNeeded_queue_sublist (key : TemplateKey) :
    ((p.gcIfNeeded removed).available.queue key).Sublist (p.available.queue key) := by
  unfold gcIfNeeded
  split
  · exact List.Sublist.refl _
  · rw [sweep_eq, queue_retain]
    exact List.filter_sublist

/-- A collection that has nothing to remove changes nothing. -/
theorem gcIfNeeded_eq_self (h : ¬ p.Collects removed) : p.gcIfNeeded removed = p := by
  unfold gcIfNeeded
  split
  · rfl
  · rename_i habove
    have hnone : ∀ t, swept removed (p.gcBatch p.totalDepth) t = false := by
      intro t
      rw [swept, List.any_eq_false]
      intro u hu hand
      rw [Bool.and_eq_true] at hand
      exact h ⟨not_le.mp habove, u, hu, hand.2⟩
    rw [sweep_eq]
    simp [hnone, retain_true]

/-- A collection that has something to remove changes a queue. -/
theorem gcIfNeeded_changes (h : p.Collects removed) :
    ∃ key, (p.gcIfNeeded removed).available.queue key ≠ p.available.queue key := by
  obtain ⟨habove, t, ht, hrm⟩ := h
  obtain ⟨key, hkey⟩ := mem_all_iff.mp (mem_gcBatch ht).1
  refine ⟨key, fun heq => ?_⟩
  rw [← heq, gcIfNeeded, if_neg (not_le.mpr habove), sweep_eq, queue_retain,
    List.mem_filter] at hkey
  have hswept : swept removed (p.gcBatch p.totalDepth) t = true := by
    rw [swept, List.any_eq_true]
    exact ⟨t, ht, by simp [hrm]⟩
  simp [hswept] at hkey

theorem same_gcIfNeeded_iff : Same p (p.gcIfNeeded removed) ↔ ¬ p.Collects removed := by
  refine ⟨?_, ?_⟩
  · intro hsame hcol
    obtain ⟨key, hne⟩ := gcIfNeeded_changes hcol
    exact hne (hsame.queue key)
  · intro h
    rw [gcIfNeeded_eq_self h]
    exact .refl p

/-! ## Giving back what was taken -/

/-- The pool with one more restore of `id` in flight. -/
def pin (p : TemplatePool) (id : String) : TemplatePool :=
  { p with inFlightRestores := p.inFlightRestores.incr id }

theorem endRestoreCall_pin :
    (p.pin id).endRestoreCall removed id =
      if p.inFlightRestores.entry id = none then p.gcIfNeeded removed else p := by
  have hp : ((p.pin id).endRestore id).1 = p := by
    simp only [pin, endRestore, Tally.decr_incr]
  have htrig : ((p.pin id).endRestore id).2 = true ↔ p.inFlightRestores.entry id = none :=
    Tally.lastOut_incr
  unfold endRestoreCall
  rw [hp]
  by_cases h : p.inFlightRestores.entry id = none
  · rw [if_pos (htrig.mpr h), if_pos h]
  · rw [if_neg (fun h' => h (htrig.mp h')), if_neg h]

theorem derefCall_refTemplate :
    (p.refTemplate id).derefCall removed id =
      if p.inUseCount.entry id = none then p.gcIfNeeded removed else p := by
  have hp : ((p.refTemplate id).deref id).1 = p := by
    simp only [refTemplate, deref, Tally.decr_incr]
  have htrig : ((p.refTemplate id).deref id).2 = true ↔ p.inUseCount.entry id = none :=
    Tally.lastOut_incr
  unfold derefCall
  rw [hp]
  by_cases h : p.inUseCount.entry id = none
  · rw [if_pos (htrig.mpr h), if_pos h]
  · rw [if_neg (fun h' => h (htrig.mp h')), if_neg h]

/-- `p'` counts what `p` counts, and has no template that `p` does not have. -/
structure Collected (p p' : TemplatePool) : Prop where
  inFlightRestores : p'.inFlightRestores = p.inFlightRestores
  inUseCount : p'.inUseCount = p.inUseCount
  sublist : p'.available.all.Sublist p.available.all

theorem collected_gcIfNeeded : Collected p (p.gcIfNeeded removed) := by
  unfold gcIfNeeded
  split
  · exact ⟨rfl, rfl, List.Sublist.refl _⟩
  · rw [sweep_eq]
    refine ⟨rfl, rfl, ?_⟩
    rw [all_retain]
    exact List.filter_sublist

/-- `end_restore` counts one restore less; the rest is collection. -/
theorem collected_endRestoreCall :
    Collected (p.endRestore id).1 (p.endRestoreCall removed id) := by
  unfold endRestoreCall
  split
  · exact collected_gcIfNeeded
  · exact ⟨rfl, rfl, List.Sublist.refl _⟩

/-- `deref` counts one reference less; the rest is collection. -/
theorem collected_derefCall : Collected (p.deref id).1 (p.derefCall removed id) := by
  unfold derefCall
  split
  · exact collected_gcIfNeeded
  · exact ⟨rfl, rfl, List.Sublist.refl _⟩

/-! ## Taking a template out and putting it back -/

section

variable {key : TemplateKey} {q : Queues TemplateKey PooledTemplate} {u : PooledTemplate}

section

variable (hw : p.WellFiled) (ht : t ∈ p.available.all)

include hw ht

theorem WellFiled.eq_of_id (hu : u ∈ p.available.all) (h : u.id = t.id) : u = t :=
  List.inj_on_of_nodup_map hw.nodup hu ht h

theorem WellFiled.mem_queue : t ∈ p.available.queue t.key := by
  obtain ⟨k, hk⟩ := mem_all_iff.mp ht
  rw [hw.key k t hk]
  exact hk

/-- Only the queue of its own key has a template with the id of `t`. -/
theorem WellFiled.ne_of_key (hu : u ∈ p.available.queue key) (hkey : key ≠ t.key) :
    u.id ≠ t.id := by
  intro h
  have heq := hw.eq_of_id ht (mem_all_of_mem_queue hu) h
  exact hkey ((hw.key key u hu).symm.trans (by rw [heq]))

/-- The queue of its key around `t`. -/
theorem WellFiled.split :
    ∃ xs ys, p.available.queue t.key = xs ++ t :: ys ∧ (∀ u ∈ xs, u.id ≠ t.id) ∧
      ∀ u ∈ ys, u.id ≠ t.id := by
  obtain ⟨xs, ys, hsplit⟩ := List.append_of_mem (hw.mem_queue ht)
  obtain ⟨zs, ws, hall, -⟩ := all_adjust (q := p.available) (k := t.key) id rfl
  have hnd := hw.nodup
  rw [hall, hsplit, List.map_append, List.map_append, List.map_append, List.map_cons] at hnd
  have hmid := (List.nodup_append.mp (List.nodup_append.mp hnd).1).2.1
  rw [List.nodup_append, List.nodup_cons] at hmid
  refine ⟨xs, ys, hsplit, ?_, ?_⟩
  · intro u hu h
    exact hmid.2.2 u.id (List.mem_map_of_mem hu) t.id (by simp) h
  · intro u hu h
    exact hmid.2.1.1 (h ▸ List.mem_map_of_mem hu)

end

/-- `p'` is `p` without `t`. -/
structure Without (p : TemplatePool) (t : PooledTemplate) (p' : TemplatePool) : Prop where
  queue : ∀ key, p'.available.queue key = (p.available.queue key).filter fun u => u.id != t.id
  inFlightRestores : p'.inFlightRestores = p.inFlightRestores
  inUseCount : p'.inUseCount = p.inUseCount
  inFlightRefills : p'.inFlightRefills = p.inFlightRefills

theorem Without.same_dequeue (h : Without p t p') : Same (p.dequeue t.id) p' where
  queue key := by
    rw [h.queue, dequeue, queue_retain]
  inFlightRestores := h.inFlightRestores
  inUseCount := h.inUseCount
  inFlightRefills := h.inFlightRefills

/-- Without `t`, its queue has what stood around it. -/
theorem filter_around {xs ys : List PooledTemplate} (hxs : ∀ u ∈ xs, u.id ≠ t.id)
    (hys : ∀ u ∈ ys, u.id ≠ t.id) :
    ((xs ++ t :: ys).filter fun u => u.id != t.id) = xs ++ ys := by
  rw [List.filter_append, List.filter_cons]
  have hx : (xs.filter fun u => u.id != t.id) = xs :=
    List.filter_eq_self.mpr fun u hu => by simpa using hxs u hu
  have hy : (ys.filter fun u => u.id != t.id) = ys :=
    List.filter_eq_self.mpr fun u hu => by simpa using hys u hu
  simp [hx, hy]

/-- Putting `t` back restores the queues if and only if it was the latest of its
key: it goes to the back. -/
theorem Without.same_pushBack_iff (h : Without p t p') (hw : p.WellFiled)
    (ht : t ∈ p.available.all) : Same p (p'.pushBack t) ↔ p.latest t.key = some t := by
  obtain ⟨xs, ys, hq, hxs, hys⟩ := hw.split ht
  have hback : (p'.pushBack t).available.queue t.key = xs ++ ys ++ [t] := by
    rw [pushBack, queue_pushBack, if_pos rfl, h.queue, hq, filter_around hxs hys]
  refine ⟨?_, ?_⟩
  · intro hsame
    have heq := hsame.queue t.key
    rw [hback] at heq
    rw [latest, ← heq]
    simp
  · intro hlast
    rw [latest, hq] at hlast
    have hnil : ys = [] := by
      cases ys with
      | nil => rfl
      | cons y ys =>
        rw [List.getLast?_append, List.getLast?_cons_cons, List.getLast?_cons] at hlast
        simp only [Option.some_or, Option.some.injEq] at hlast
        have hmem : t ∈ y :: ys := by
          rw [← hlast]
          cases hg : ys.getLast? with
          | none => simp
          | some z => exact List.mem_cons_of_mem _ (List.mem_of_getLast? hg)
        exact absurd rfl (hys t hmem)
    refine ⟨?_, h.inFlightRestores, h.inUseCount, h.inFlightRefills⟩
    intro key
    by_cases hkey : key = t.key
    · rw [hkey, hback, hq, hnil]
      simp
    · rw [pushBack, queue_pushBack, if_neg hkey, h.queue]
      exact List.filter_eq_self.mpr fun u hu => by simpa using hw.ne_of_key ht hu hkey

/-- `acquire` takes the latest template out, and putting it back leaves no trace. -/
theorem take_acquire (h : p.latest key = some t) (hkey : t.key = key) :
    ∃ p', p.take (.acquire key) = some (t, p') ∧ p'.pushBack t = p := by
  have hpop : p.available.popBack key = some (t, p.available.adjust key List.dropLast) := by
    have hlast : (p.available.queue key).getLast? = some t := h
    simp [popBack, hlast]
  refine ⟨{ p with available := p.available.adjust key List.dropLast }, ?_, ?_⟩
  · simp [take, acquirePop, hpop]
  · have := pushBack_popBack hpop
    rw [pushBack, hkey]
    simp only [this]

theorem take_acquire_without (hw : p.WellFiled) (h : p.take (.acquire key) = some (t, p')) :
    Without p t p' := by
  obtain ⟨q, hpop, rfl⟩ := popped_eq_some h
  have hmem := mem_of_popBack hpop
  have hkey := hw.key key t hmem
  have ht := mem_all_of_mem_queue hmem
  obtain ⟨hq, hother⟩ := popBack_spec hpop
  refine ⟨?_, rfl, rfl, rfl⟩
  intro k
  by_cases hk : k = key
  · obtain ⟨xs, ys, hsplit, hxs, hys⟩ := hw.split ht
    rw [hkey] at hsplit
    have hys' : ys = [] := by
      have heq := hsplit.symm.trans hq
      rcases List.eq_nil_or_concat ys with hnil | ⟨zs, z, rfl⟩
      · exact hnil
      · rw [List.concat_eq_append, ← List.cons_append, ← List.append_assoc] at heq
        have hz := (List.append_inj' heq rfl).2
        rw [List.cons.injEq] at hz
        exact absurd (by rw [hz.1]) (hys z (by simp))
    rw [hk, hsplit, filter_around hxs hys, hys', List.append_nil]
    rw [hsplit, hys'] at hq
    exact (List.append_inj' hq rfl).1.symm
  · rw [hother k hk]
    exact (List.filter_eq_self.mpr fun u hu => by
      simpa using hw.ne_of_key ht hu (hkey ▸ hk)).symm

/-- `acquire_by_id` takes the template it finds out. -/
theorem acquireByIdPop_spec (hw : p.WellFiled) (h : p.findById id = some t) :
    ∃ p', p.take (.acquireById id) = some (t, p') ∧ Without p t p' := by
  obtain ⟨hmem, hid⟩ := mem_of_findById h
  have hfst := removeFirst_fst p.available fun u => u.id == id
  rw [show p.available.all.find? (fun u => u.id == id) = some t from h,
    Option.map_eq_some_iff] at hfst
  obtain ⟨⟨a, q⟩, hrem, ha⟩ := hfst
  have hat : a = t := ha
  subst hat
  refine ⟨{ p with available := q }, by simp [take, acquireByIdPop, hrem], ?_, rfl, rfl, rfl⟩
  intro k
  obtain ⟨k₀, hk₀, herase, hother⟩ := queue_removeFirst hrem
  have hkey := hw.key k₀ a hk₀
  by_cases hk : k = k₀
  · obtain ⟨xs, ys, hsplit, hxs, hys⟩ := hw.split hmem
    rw [hk, herase, ← hkey, hsplit, filter_around hxs hys,
      List.eraseP_append_right _ (fun u hu => by simpa [← hid] using hxs u hu),
      List.eraseP_cons_of_pos (by simp [hid])]
  · rw [hother k hk]
    exact (List.filter_eq_self.mpr fun u hu => by
      simpa using hw.ne_of_key hmem hu (fun h => hk (h.trans hkey))).symm

end

end Kuasar.TemplatePool

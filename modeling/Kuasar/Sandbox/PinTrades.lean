import Kuasar.Sandbox.TemplatePins

/-!
# Sandbox.PinTrades — what the calls of the pool do to the pins

Each call of the pool gives up some pins and puts on others (`Trade`): an acquisition puts on the
pin of its lease, the end of a lease and the disposal of a sandbox give theirs up, and what is
collected on the way takes no pin off. What a start keeps when its lease is complete is what its
record gives back later (`pinsOf_record`), and it pins the template that backs the VM
(`covered_record`).
-/

namespace Kuasar.TemplatePins

open TemplatePool TemplateStart RestoreMetadata

/-! ## What the pool does to the pins -/

/-- The pool gave up the pins `gave` and put on the pins `took`; no id is queued twice unless one
that was queued is put back. -/
structure Trade (g : Shared) (gave took : Multiset Pin) (g' : Shared) : Prop where
  pins : ∀ pin, g.pins pin + took.count pin ≤ g'.pins pin + gave.count pin
  nodup : g.ids.Nodup → (∀ id, .exclusive id ∈ gave → id ∉ g.ids) → g'.ids.Nodup

variable {g g' : Shared} {removed : String → Bool} {id : String} {t : PooledTemplate}

theorem Trade.refl (g : Shared) : Trade g 0 0 g := ⟨fun _ => le_rfl, fun h _ => h⟩

theorem pins_exclusive_le (g : Shared) (id : String) : g.pins (.exclusive id) ≤ 1 := by
  simp only [Shared.pins]
  split <;> omega

theorem pins_exclusive_of_mem (h : id ∈ g.ids) : g.pins (.exclusive id) = 0 := by
  simp [Shared.pins, h]

theorem pins_exclusive_of_out (hcons : id ∈ g.consumed) (hout : id ∉ g.ids) :
    g.pins (.exclusive id) = 1 := by
  simp [Shared.pins, hcons, hout]

/-- A template that keeps its marker and does not come back keeps its exclusive pin. -/
theorem pins_exclusive_mono (hout : id ∉ g.ids → id ∉ g'.ids)
    (hcons : id ∈ g.consumed → id ∈ g'.consumed) :
    g.pins (.exclusive id) ≤ g'.pins (.exclusive id) := by
  by_cases h : id ∈ g.consumed ∧ id ∉ g.ids
  · rw [pins_exclusive_of_out h.1 h.2, pins_exclusive_of_out (hcons h.1) (hout h.2)]
  · simp [Shared.pins, h]

/-- The trades in which only counters change and templates are collected. -/
theorem Trade.of_counts {gave took : Multiset Pin} {p : TemplatePool}
    (hsub : p.available.all.Sublist g.pool.available.all)
    (hrestore : ∀ id, g.pool.inFlightRestores.count id + took.count (.restore id) ≤
      p.inFlightRestores.count id + gave.count (.restore id))
    (hreference : ∀ id, g.pool.inUseCount.count id + took.count (.reference id) ≤
      p.inUseCount.count id + gave.count (.reference id))
    (hexclusive : ∀ id, took.count (.exclusive id) = 0) :
    Trade g gave took { g with pool := p } := by
  have hids : (Shared.ids { g with pool := p }).Sublist g.ids := hsub.map _
  refine ⟨?_, fun hnd _ => hnd.sublist hids⟩
  intro pin
  cases pin with
  | restore id => exact hrestore id
  | reference id => exact hreference id
  | exclusive id =>
    have hmono : g.pins (.exclusive id) ≤ Shared.pins { g with pool := p } (.exclusive id) :=
      pins_exclusive_mono (fun hout hid => hout (hids.subset hid)) fun h => h
    rw [hexclusive id]
    omega

theorem trade_endRestore :
    Trade g {.restore id} 0 { g with pool := g.pool.endRestoreCall removed id } := by
  have hc : Collected (g.pool.endRestore id).1 (g.pool.endRestoreCall removed id) :=
    collected_endRestoreCall
  refine .of_counts hc.sublist ?_ ?_ (fun _ => rfl)
  · intro x
    rw [hc.inFlightRestores]
    simpa [endRestore, Multiset.count_singleton] using
      Tally.count_le_count_decr (c := g.pool.inFlightRestores) (a := id) (b := x)
  · intro x
    rw [hc.inUseCount]
    simp [endRestore]

theorem trade_deref :
    Trade g {.reference id} 0 { g with pool := g.pool.derefCall removed id } := by
  have hc : Collected (g.pool.deref id).1 (g.pool.derefCall removed id) := collected_derefCall
  refine .of_counts hc.sublist ?_ ?_ (fun _ => rfl)
  · intro x
    rw [hc.inFlightRestores]
    simp [deref]
  · intro x
    rw [hc.inUseCount]
    simpa [deref, Multiset.count_singleton] using
      Tally.count_le_count_decr (c := g.pool.inUseCount) (a := id) (b := x)

theorem trade_pin : Trade g 0 {.restore id} { g with pool := g.pool.pin id } := by
  refine .of_counts (List.Sublist.refl _) ?_ ?_ (fun _ => by simp)
  · intro x
    simp [pin, Tally.count_incr, Multiset.count_singleton]
  · intro x
    simp [pin]

theorem trade_refTemplate :
    Trade g 0 {.reference id} { g with pool := g.pool.refTemplate id } := by
  refine .of_counts (List.Sublist.refl _) ?_ ?_ (fun _ => by simp)
  · intro x
    simp [refTemplate]
  · intro x
    simp [refTemplate, Tally.count_incr, Multiset.count_singleton]

theorem trade_pinExtra (r : RestoreMetadata) :
    Trade g 0 (extraPins r) (g.pinExtra r.envNonCopyPinned) := by
  cases h : r.envNonCopyPinned with
  | none =>
    simp only [extraPins, h]
    exact .refl g
  | some id =>
    simp only [extraPins, h]
    exact trade_refTemplate

theorem trade_unpinExtra (r : RestoreMetadata) :
    Trade g (extraPins r) 0 (g.unpinExtra removed r.envNonCopyPinned) := by
  cases h : r.envNonCopyPinned with
  | none =>
    simp only [extraPins, h]
    exact .refl g
  | some id =>
    simp only [extraPins, h]
    exact trade_deref

theorem trade_dispose (cleaned : Bool) (d : Disposal) :
    Trade g (pinsOf d) 0 (g.dispose removed cleaned d) := by
  cases d with
  | keep | deleteContinuation => exact .refl g
  | deref id => exact trade_deref
  | cleanupConsumed id =>
    refine ⟨?_, fun hnd _ => hnd⟩
    intro pin
    cases pin with
    | restore | reference => exact Nat.le_add_right _ _
    | exclusive x =>
      by_cases hx : x = id
      · have hle := pins_exclusive_le g x
        simp only [pinsOf, hx, Multiset.count_singleton_self, Multiset.count_zero] at hle ⊢
        omega
      · have hmono : g.pins (.exclusive x) ≤
            (g.dispose removed cleaned (.cleanupConsumed id)).pins (.exclusive x) := by
          refine pins_exclusive_mono (fun hout => hout) fun hcons => ?_
          cases cleaned
          · exact hcons
          · exact Finset.mem_erase.mpr ⟨hx, hcons⟩
        exact hmono.trans (Nat.le_add_right _ _)

theorem trade_leaseComplete (st : Start) :
    Trade g st.returned 0 (g.leaseComplete removed st.template st.kind) := by
  cases h : st.kind with
  | sharedLease =>
    simp only [Start.returned, Start.pin, h, if_true, leasePin]
    exact trade_endRestore
  | sharedRef | exclusive =>
    simp only [Start.returned, h, reduceCtorEq, if_false]
    exact .refl g

/-- A template that is put back was in no queue. -/
theorem trade_pushBack (unmarked : Bool) :
    Trade g {.exclusive t.id} 0
      ⟨g.pool.pushBack t, if unmarked then g.consumed.erase t.id else g.consumed⟩ := by
  have hperm : (Shared.ids ⟨g.pool.pushBack t,
      if unmarked then g.consumed.erase t.id else g.consumed⟩).Perm (t.id :: g.ids) :=
    Queues.all_pushBack_perm.map PooledTemplate.id
  refine ⟨?_, ?_⟩
  · intro pin
    cases pin with
    | restore | reference => exact Nat.le_add_right _ _
    | exclusive x =>
      by_cases hx : x = t.id
      · have hle := pins_exclusive_le g x
        simp only [hx, Multiset.count_singleton_self, Multiset.count_zero] at hle ⊢
        omega
      · refine (pins_exclusive_mono ?_ fun hcons => ?_).trans (Nat.le_add_right _ _)
        · rw [hperm.mem_iff, List.mem_cons, not_or]
          exact fun hout => ⟨hx, hout⟩
        · cases unmarked
          · exact hcons
          · exact Finset.mem_erase.mpr ⟨hx, hcons⟩
  · intro hnd hout
    rw [hperm.nodup_iff, List.nodup_cons]
    exact ⟨hout t.id (Multiset.mem_singleton_self _), hnd⟩

/-- A template that is taken out was queued, so it had no exclusive pin. -/
theorem trade_pop {q : Queues TemplateKey PooledTemplate} (hnd : g.ids.Nodup)
    (hperm : g.pool.available.all.Perm (t :: q.all)) :
    Trade g 0 {.exclusive t.id} ⟨{ g.pool with available := q }, insert t.id g.consumed⟩ := by
  have hids : g.ids.Perm (t.id :: q.all.map (·.id)) := hperm.map PooledTemplate.id
  rw [hids.nodup_iff, List.nodup_cons] at hnd
  refine ⟨?_, fun _ _ => hnd.2⟩
  intro pin
  cases pin with
  | restore | reference => simp [Shared.pins]
  | exclusive x =>
    by_cases hx : x = t.id
    · rw [hx, pins_exclusive_of_mem (hids.mem_iff.mpr (by simp)),
        pins_exclusive_of_out (Finset.mem_insert_self _ _) hnd.1]
      simp
    · rw [Multiset.count_eq_zero_of_notMem (by simp [hx])]
      refine (pins_exclusive_mono ?_ Finset.mem_insert_of_mem).trans (Nat.le_add_right _ _)
      exact fun hout hq => hout (hids.mem_iff.mpr (List.mem_cons_of_mem _ hq))

/-- The same templates in another order. -/
theorem trade_perm {q : Queues TemplateKey PooledTemplate}
    (hperm : q.all.Perm g.pool.available.all) :
    Trade g 0 0 { g with pool := { g.pool with available := q } } := by
  have hids : (Shared.ids { g with pool := { g.pool with available := q } }).Perm g.ids :=
    hperm.map PooledTemplate.id
  refine ⟨?_, fun hnd _ => hids.nodup_iff.mpr hnd⟩
  intro pin
  cases pin with
  | restore | reference => exact le_rfl
  | exclusive x =>
    exact pins_exclusive_mono (fun hout hq => hout (hids.mem_iff.mp hq)) fun hcons => hcons

theorem trade_leaseFail (unmarked : Bool) (st : Start) :
    Trade g {st.pin} 0 (g.leaseFail removed unmarked st.template st.kind) := by
  cases h : st.kind with
  | sharedLease =>
    simp only [Start.pin, h, leasePin]
    exact trade_endRestore
  | sharedRef =>
    simp only [Start.pin, h, leasePin]
    exact trade_deref
  | exclusive =>
    simp only [Start.pin, h, leasePin]
    exact trade_pushBack unmarked

/-! ## Acquisitions -/

/-- How the pool hands out a template, by its kind and the mode of the pool. -/
inductive Handed (p : TemplatePool) (t : PooledTemplate) (op : Take) : TemplatePool → Prop where
  | environment (hkind : t.snapshotType = .environment) (hpop : op.pops = false) :
      Handed p t op { p with inFlightRestores := p.inFlightRestores.incr t.id }
  | shared (hkind : t.snapshotType = .warmFork) (hmode : p.leaseMode = .shared)
      (hpop : op.pops = false) : Handed p t op { p with inUseCount := p.inUseCount.incr t.id }
  | exclusive {q} (hkind : t.snapshotType = .warmFork)
      (hmode : p.leaseMode ≠ .shared) (hpop : op.pops = true)
      (hperm : p.available.all.Perm (t :: q.all)) : Handed p t op { p with available := q }

variable {p p' : TemplatePool} {op : Take} {req : Request}

/-- The kind that the choice saw is the kind of the template. -/
theorem kind_of_found {found : Option PooledTemplate} {kind : SnapshotType}
    (hkind : found.map PooledTemplate.snapshotType = some kind) (h : found = some t) :
    t.snapshotType = kind := by
  rw [h] at hkind
  exact Option.some.inj hkind

theorem handed_of_key {k : TemplateKey} (hop : p.acquireForRestore k = some op)
    (h : p.take op = some (t, p')) : Handed p t op p' := by
  unfold acquireForRestore at hop
  split at hop
  · cases hop
  · rename_i hkind
    cases hop
    obtain ⟨hu, rfl⟩ := pinned_eq_some h
    exact .environment (kind_of_found hkind hu) rfl
  · rename_i hkind
    split at hop
    · rename_i hmode
      cases hop
      obtain ⟨hu, -, rfl⟩ := takeRef_eq_some h
      exact .shared (kind_of_found hkind hu) hmode rfl
    · rename_i hmode
      cases hop
      obtain ⟨q, hu, rfl⟩ := popped_eq_some h
      have hlast : p.latest k = some t := by
        rw [latest, (Queues.popBack_spec hu).1, List.getLast?_concat]
      exact .exclusive (kind_of_found hkind hlast) hmode rfl (Queues.all_popBack_perm hu)
  · cases hop

theorem handed_of_id {x : String} (hop : p.acquireByIdForRestore x = some op)
    (h : p.take op = some (t, p')) : Handed p t op p' := by
  unfold acquireByIdForRestore at hop
  split at hop
  · cases hop
  · rename_i hkind
    cases hop
    obtain ⟨hu, rfl⟩ := pinned_eq_some h
    exact .environment (kind_of_found hkind hu) rfl
  · rename_i hkind
    split at hop
    · rename_i hmode
      cases hop
      obtain ⟨hu, -, rfl⟩ := takeRef_eq_some h
      exact .shared (kind_of_found hkind hu) hmode rfl
    · rename_i hmode
      cases hop
      obtain ⟨q, hu, rfl⟩ := popped_eq_some h
      have hfirst := Queues.removeFirst_fst p.available fun u => u.id == x
      rw [hu] at hfirst
      exact .exclusive (kind_of_found hkind hfirst.symm) hmode rfl (Queues.removeFirst_spec hu).2
  · cases hop

theorem handed (hop : req.take p = some op) (h : p.take op = some (t, p')) : Handed p t op p' := by
  cases req with
  | key k => exact handed_of_key hop h
  | id x => exact handed_of_id hop h

variable {kind : RestoreLeaseKind} {marker : Bool} {st : Start}

theorem acquire_some (h : g.acquire (req.take g.pool) marker = (g', some t)) :
    ∃ op p', Handed g.pool t op p' ∧
      g' = ⟨p', if op.pops then insert t.id g.consumed else g.consumed⟩ := by
  cases hop : req.take g.pool with
  | none => simp [Shared.acquire, hop] at h
  | some op =>
    cases ht : g.pool.take op with
    | none => simp [Shared.acquire, hop, acquireWith, ht] at h
    | some r =>
      obtain ⟨u, p'⟩ := r
      by_cases hmark : (op.pops && !marker) = true
      · simp [Shared.acquire, hop, acquireWith, ht, hmark] at h
      · simp only [Shared.acquire, hop, acquireWith, ht, hmark, if_false, Bool.false_eq_true,
          Prod.mk.injEq, Option.some.injEq] at h
        obtain ⟨rfl, rfl⟩ := h
        exact ⟨op, p', handed hop ht, rfl⟩

/-- A template that is handed out is pinned by what its lease is. -/
theorem trade_acquire (hnd : g.ids.Nodup) (h : g.acquire (req.take g.pool) marker = (g', some t)) :
    ∃ kind, g.pool.leaseKind t = some kind ∧ Trade g 0 {leasePin t.id kind} g' := by
  obtain ⟨op, p', hhand, rfl⟩ := acquire_some h
  cases hhand with
  | environment hkind hpop =>
    refine ⟨.sharedLease, by simp [leaseKind, hkind], ?_⟩
    simp only [hpop, Bool.false_eq_true, if_false]
    exact trade_pin
  | shared hkind hmode hpop =>
    refine ⟨.sharedRef, by simp [leaseKind, hkind, hmode], ?_⟩
    simp only [hpop, Bool.false_eq_true, if_false]
    exact trade_refTemplate
  | exclusive hkind hmode hpop hperm =>
    refine ⟨.exclusive, by simp [leaseKind, hkind, hmode], ?_⟩
    simp only [hpop, if_true]
    exact trade_pop hnd hperm

/-- An acquisition that fails leaves the queues with the same templates. -/
theorem trade_miss (h : g.acquire (req.take g.pool) marker = (g', none)) : Trade g 0 0 g' := by
  cases hop : req.take g.pool with
  | none =>
    simp only [Shared.acquire, hop, Prod.mk.injEq, and_true] at h
    rw [← h]
    exact .refl g
  | some op =>
    cases ht : g.pool.take op with
    | none =>
      simp only [Shared.acquire, hop, acquireWith, ht, Prod.mk.injEq, and_true] at h
      rw [← h]
      exact .refl g
    | some r =>
      obtain ⟨u, p'⟩ := r
      by_cases hmark : (op.pops && !marker) = true
      · simp only [Shared.acquire, hop, acquireWith, ht, hmark, if_true, Prod.mk.injEq,
          and_true] at h
        rw [← h]
        cases handed hop ht with
        | environment _ hpop | shared _ _ hpop => simp [hpop] at hmark
        | exclusive _ _ _ hperm => exact trade_perm (Queues.all_pushBack_perm.trans hperm.symm)
      · simp [Shared.acquire, hop, acquireWith, ht, hmark] at h

/-! ## What a record gives back -/

theorem pinsOf_disposalOf (destroy : Bool) (r : RestoreMetadata) :
    pinsOf (disposalOf destroy r) = pinsOf r.onDelete := by
  obtain ⟨tid, kind, mode, reflink, memory, orphans⟩ := r
  cases destroy with
  | false => rfl
  | true =>
    cases tid with
    | none => rfl
    | some tid => rcases kind with _ | _ | _ | _ <;> rfl

theorem kind_sandboxer (h : p.leaseKind t = some kind) : (Start.sandboxer p t).kind = kind := by
  unfold leaseKind at h
  unfold Start.kind Start.sandboxer
  cases hkind : t.snapshotType with
  | environment => simpa [hkind] using h
  | warmFork =>
    simp only [hkind] at h ⊢
    split at h <;> simp_all
  | continuation => simp [hkind] at h

theorem kind_ofService (hw : t.snapshotType = .warmFork) (h : p.leaseKind t = some kind) :
    (Start.ofService p t hw).kind = kind := by
  unfold leaseKind at h
  unfold Start.kind Start.ofService
  simp only [hw] at h ⊢
  split at h <;> simp_all

theorem pin_sandboxer (h : p.leaseKind t = some kind) :
    (Start.sandboxer p t).pin = leasePin t.id kind := by
  rw [Start.pin, kind_sandboxer h]
  rfl

theorem pin_ofService (hw : t.snapshotType = .warmFork) (h : p.leaseKind t = some kind) :
    (Start.ofService p t hw).pin = leasePin t.id kind := by
  rw [Start.pin, kind_ofService hw h]
  rfl

def Start.kept (st : Start) (r : RestoreMetadata) : Multiset Pin :=
  (st.pin ::ₘ extraPins r) - st.returned

theorem Start.kept_environment (h : st.template.snapshotType = .environment) (r : RestoreMetadata) :
    st.kept r = extraPins r := by
  simp [Start.kept, Start.returned, Start.kind, h]

theorem Start.kept_of_ne (h : st.template.snapshotType ≠ .environment) (r : RestoreMetadata) :
    st.kept r = st.pin ::ₘ extraPins r := by
  have hkind : st.kind ≠ .sharedLease := by
    unfold Start.kind
    cases hk : st.template.snapshotType with
    | environment => exact absurd hk h
    | warmFork => by_cases hm : st.leaseMode = .shared <;> simp [hm]
    | continuation => simp
  simp [Start.kept, Start.returned, hkind]

theorem Start.service_of_ne (h : st.template.snapshotType ≠ .warmFork) : st.service = false := by
  by_contra hs
  exact h (st.warmFork (by simpa using hs))

theorem extraPins_environment (cfg : Config) (h : st.template.snapshotType = .environment)
    (p : TemplatePool) (before : RestoreMetadata) :
    extraPins (st.record cfg p before) =
      if cfg.defaultMemoryRestoreMode = .copy then 0 else {.reference st.template.id} := by
  have hs : st.service = false := Start.service_of_ne (by simp [h])
  simp only [Start.record, hs, Bool.false_eq_true, if_false]
  cases hmode : cfg.defaultMemoryRestoreMode <;>
    simp [extraPins, TemplateStart.record, envNonCopyPinned,
      nonCopy, h, hmode]

/-- What the start keeps is what its record gives back. -/
theorem pinsOf_record (cfg : Config) (st : Start) (p : TemplatePool) (before : RestoreMetadata) :
    pinsOf (st.record cfg p before).onDelete ≤ st.kept (st.record cfg p before) := by
  cases hkind : st.template.snapshotType with
  | environment =>
    rw [Start.kept_environment hkind, extraPins_environment cfg hkind]
    have hs : st.service = false := Start.service_of_ne (by simp [hkind])
    simp only [Start.record, hs, Bool.false_eq_true, if_false]
    cases hmode : cfg.defaultMemoryRestoreMode <;>
      simp [pinsOf, TemplateStart.record, onDelete, disposal,
        nonCopy, hkind, hmode]
  | warmFork =>
    rw [Start.kept_of_ne (by simp [hkind])]
    have hpins : pinsOf (st.record cfg p before).onDelete = {st.pin} := by
      cases hs : st.service <;> cases hm : st.leaseMode <;>
        simp [Start.record, hs, hm, pinsOf, TemplateStart.record, serviceRecord,
          onDelete, disposal, hkind, Start.pin, Start.kind,
          leasePin]
    rw [hpins, Multiset.singleton_le]
    exact Multiset.mem_cons_self _ _
  | continuation =>
    have hs : st.service = false := Start.service_of_ne (by simp [hkind])
    have hpins : pinsOf (st.record cfg p before).onDelete = 0 := by
      simp [Start.record, hs, pinsOf, TemplateStart.record, onDelete,
        disposal, hkind]
    rw [hpins]
    exact Multiset.zero_le _

/-- What it keeps has a pin on the template that backs the VM. -/
theorem covered_record (cfg : Config) (st : Start) (p : TemplatePool) (before : RestoreMetadata)
    {id : String} (h : st.backing cfg = some id) :
    ∃ pin ∈ st.kept (st.record cfg p before), pin.id = id := by
  unfold Start.backing at h
  split at h
  · cases h
  · rename_i hmode
    cases h
    by_cases hkind : st.template.snapshotType = .environment
    · rw [Start.kept_environment hkind, extraPins_environment cfg hkind, if_neg hmode]
      exact ⟨.reference st.template.id, Multiset.mem_singleton_self _, rfl⟩
    · rw [Start.kept_of_ne hkind]
      refine ⟨st.pin, Multiset.mem_cons_self _ _, ?_⟩
      unfold Start.pin
      cases st.kind <;> rfl

end Kuasar.TemplatePins

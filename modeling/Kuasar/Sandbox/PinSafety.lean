import Kuasar.Sandbox.PinCalls

/-!
# Sandbox.PinSafety — no VM runs from a template that is not pinned

In every run in which the starts that fail can stop their VMs, a sandbox is started only after its
earlier VMs are over, and each is ended once (`Orderly`), the template of every VM that may still
run and pages from it is pinned (`template_pinned`). Without any one of the three conditions a VM
can lose its template (`each_condition_needed`).

The pins of the pool are at least the pins that sandboxes hold and calls owe (`Inv.counted`): what a
move takes from the pool it puts in the hands of its call or its sandbox, and it gives back what one
of them has.
-/

namespace Kuasar.TemplatePins

open TemplatePool TemplateStart Tla

variable {cfg : Config} {e : Effect} {g g' : Shared} {sb sb' : Sandbox} {c c' : Option Call}

/-! ## The pins in hand -/

/-- The pins a call answers for: the one of its lease, before the sandbox has a VM and after it has
none, and the one that is given back when the lease is complete. -/
def Call.owes : Call → Multiset Pin
  | .leased st | .found st | .starting st | .recorded st | .failing st => {st.pin}
  | .completing st => st.returned
  | _ => 0

/-- The pins of a call, if there is one. -/
def owed : Option Call → Multiset Pin
  | none => 0
  | some c => c.owes

/-- What a move gives back it had in hand, and what it has in hand it had or took. -/
def Accounted (g : Shared) (sb : Sandbox) (c : Option Call) (g' : Shared) (sb' : Sandbox)
    (c' : Option Call) : Prop :=
  ∃ gave took, Trade g gave took g' ∧ gave ≤ sb.held + owed c ∧
    sb'.held + owed c' + gave ≤ sb.held + owed c + took

theorem accounted_of_same (h : sb'.held + owed c' = sb.held + owed c) :
    Accounted g sb c g sb' c' := by
  refine ⟨0, 0, .refl g, Multiset.zero_le _, ?_⟩
  rw [h]

/-- A move that takes a pin. -/
theorem accounted_of_take {took : Multiset Pin} (ht : Trade g 0 took g')
    (h : sb'.held + owed c' ≤ sb.held + owed c + took) : Accounted g sb c g' sb' c' := by
  refine ⟨0, took, ht, Multiset.zero_le _, ?_⟩
  rw [Multiset.add_zero]
  exact h

/-- A move that gives pins back. -/
theorem accounted_of_give {gave : Multiset Pin} (ht : Trade g gave 0 g')
    (h : sb'.held + owed c' + gave = sb.held + owed c) : Accounted g sb c g' sb' c' := by
  refine ⟨gave, 0, ht, ?_, ?_⟩
  · rw [← h]
    exact Multiset.le_add_left _ _
  · rw [h, Multiset.add_zero]

theorem returned_le (st : Start) : st.returned ≤ {st.pin} := by
  unfold Start.returned
  split
  · exact le_rfl
  · exact Multiset.zero_le _

theorem Move.accounted (h : Move cfg e g sb c g' sb' c') (hnd : g.ids.Nodup)
    (hc : ∀ d, c = some d → CallInv cfg sb d) : Accounted g sb c g' sb' c' := by
  cases h with
  | lease req marker h hreq =>
    obtain ⟨kind, hkind, ht⟩ := trade_acquire hnd h
    refine accounted_of_take ht ?_
    simp only [owed, Call.owes, pin_sandboxer hkind, Multiset.add_zero, le_refl]
  | serviceLease req marker h hkind =>
    obtain ⟨kind, hkind', ht⟩ := trade_acquire hnd h
    refine accounted_of_take ht ?_
    simp only [owed, Call.owes, pin_ofService hkind hkind', Multiset.add_zero, le_refl]
  | miss req marker h | serviceMiss req marker h =>
    exact accounted_of_take (trade_miss h) (Multiset.le_add_right _ _)
  | mismatch req marker h | serviceMismatch req marker h =>
    -- the pin stays on, in nobody's hands
    obtain ⟨kind, -, ht⟩ := trade_acquire hnd h
    exact accounted_of_take ht (Multiset.le_add_right _ _)
  | checkFail | find | lockStart | findService | refuse | lockService | record | commit
  | findDelete | lockDelete | deleteStopFail | exit | monitor => exact accounted_of_same rfl
  | preFail | restoreFail | deleteFail | remove =>
    refine accounted_of_same ?_
    rw [unlock_held]
    rfl
  | restore =>
    refine accounted_of_same ?_
    simp only [owed, Call.owes]
    rw [Multiset.add_zero, Multiset.add_comm, Multiset.singleton_add]
  | restoreKill ok | rollbackStop ok =>
    obtain ⟨-, hpin, -⟩ := hc _ rfl
    refine accounted_of_same ?_
    rw [unlock_held]
    simp only [owed, Call.owes]
    rw [Multiset.sub_add_cancel (Multiset.singleton_le.mpr hpin), Multiset.add_zero]
  | pin =>
    refine accounted_of_take (trade_pinExtra _) ?_
    simp only [owed, Call.owes, Multiset.add_zero]
    rw [Multiset.add_comm]
  | unpin removed =>
    obtain ⟨-, hpins, -⟩ := hc _ rfl
    refine accounted_of_give (trade_unpinExtra _) ?_
    simp only [owed, Call.owes, Multiset.add_zero]
    exact Multiset.sub_add_cancel ((Multiset.le_cons_self _ _).trans hpins)
  | @finish _ _ st =>
    obtain ⟨-, hpins, -⟩ := hc _ rfl
    have hpin := Multiset.mem_of_le hpins (Multiset.mem_cons_self _ _)
    refine accounted_of_same ?_
    rw [unlock_held]
    simp only [owed, Call.owes]
    rw [Multiset.sub_add_cancel ((returned_le st).trans (Multiset.singleton_le.mpr hpin)),
      Multiset.add_zero]
  | complete removed =>
    refine accounted_of_give (trade_leaseComplete _) ?_
    rw [unlock_held, owed, Multiset.add_zero]
    rfl
  | leaseFail removed unmarked =>
    refine accounted_of_give (trade_leaseFail unmarked _) ?_
    rw [unlock_held, owed, Multiset.add_zero]
    rfl
  | deleteStop hstop =>
    refine accounted_of_same ?_
    rw [unlock_held, (frame_stop hstop).held]
    rfl
  | deleteGive removed cleaned =>
    obtain ⟨-, -, -, hle, hd⟩ := hc _ rfl
    refine accounted_of_give (trade_dispose cleaned _) ?_
    simp only [owed, Call.owes, Multiset.add_zero]
    exact Multiset.sub_add_cancel (hd ▸ hle)
  | stop ok hfree hstop =>
    refine accounted_of_same ?_
    rw [(frame_stop hstop).held]

/-! ## The invariant -/

theorem callWeight_owes (pin : Pin) (c : Option Call) :
    callWeight (fun c => c.owes.count pin) c = (owed c).count pin := by
  cases c <;> rfl

/-- The sandboxes and calls are in step, no id is queued twice, and every pin in hand is on. -/
structure Inv (cfg : Config) (s : St) : Prop where
  coherent : Coherent SandboxInv (CallInv cfg) Apart s
  nodup : s.shared.ids.Nodup
  counted : ∀ pin, (s.objects.map fun sb => sb.held.count pin).sum +
    (s.tasks.map (taskWeight fun c => c.owes.count pin)).sum ≤ s.shared.pins pin

variable {s s' : St}

theorem init_inv (h : Init s) : Inv cfg s := by
  obtain ⟨hnd, hnew, hidle⟩ := h
  have hobj : ∀ sb ∈ s.objects, SandboxInv sb := by
    intro sb hsb
    rw [hnew sb hsb]
    exact ⟨nofun, nofun, fun _ _ => ⟨nofun, Multiset.zero_le _⟩, nofun⟩
  refine ⟨.of_idle hidle fun i sb hi => hobj sb (List.mem_of_getElem? hi), hnd, fun pin => ?_⟩
  have hheld : (s.objects.map fun sb => sb.held.count pin).sum = 0 :=
    sum_weight_idle (Multiset.count_zero pin) hnew
  have howed : (s.tasks.map (taskWeight fun c => c.owes.count pin)).sum = 0 :=
    sum_weight_idle rfl hidle
  omega

/-- The pins in the hands of one sandbox and one call are on. -/
theorem Inv.count_le (hinv : Inv cfg s) {k i : ℕ} (hk : s.tasks[k]? = some (c.map (Prod.mk i)))
    (hi : s.objects[i]? = some sb) (pin : Pin) :
    (sb.held + owed c).count pin ≤ s.shared.pins pin := by
  have hobj := weight_le_sum (w := fun sb : Sandbox => sb.held.count pin) hi
  have htask := weight_le_sum (w := taskWeight fun c : Call => c.owes.count pin) hk
  have := hinv.counted pin
  rw [taskWeight_map, callWeight_owes] at htask
  rw [Multiset.count_add]
  omega

theorem task_inv {k i : ℕ} (hok : ∀ sb, s.objects[i]? = some sb → OrderlyMove e sb)
    (h : ObjectStep (Move cfg) k i e s s') (hinv : Inv cfg s) : Inv cfg s' := by
  refine ⟨?_, ?_, fun pin => ?_⟩
  · refine hinv.coherent.step OrderlyMove h hok ?_ ?_
    · intro u o c u' o' c' hmove hok hs hc
      exact hmove.self hok hs hc
    · intro u o c u' o' c' m hmove hok _ hc hm
      exact hmove.other hok hc hm
  · obtain ⟨sb, sb', c, c', hk, hi, hmove, -, -⟩ := h
    obtain ⟨gave, took, ht, hgave, -⟩ := hmove.accounted hinv.nodup (hinv.coherent.callOf hk hi)
    refine ht.nodup hinv.nodup fun id hid hmem => ?_
    have hone := Multiset.one_le_count_iff_mem.mpr (Multiset.mem_of_le hgave hid)
    have hpin := hinv.count_le hk hi (.exclusive id)
    rw [pins_exclusive_of_mem hmem] at hpin
    omega
  · obtain ⟨sb, sb', c, c', hk, hi, -, hmove, hobjs, htasks, -, -⟩ :=
      h.weights (fun sb => sb.held.count pin) fun c => c.owes.count pin
    obtain ⟨gave, took, ht, -, hle⟩ := hmove.accounted hinv.nodup (hinv.coherent.callOf hk hi)
    have hpins := ht.pins pin
    have hcount := Multiset.count_le_of_le pin hle
    have := hinv.counted pin
    simp only [Multiset.count_add] at hcount
    simp only [callWeight_owes] at htasks
    omega

theorem add_inv {t : PooledTemplate} (hid : t.id ∉ s.shared.ids)
    (hcons : t.id ∉ s.shared.consumed) (hinv : Inv cfg s) :
    Inv cfg { s with shared := { s.shared with pool := s.shared.pool.pushBack t } } := by
  have hperm : (Shared.ids { s.shared with pool := s.shared.pool.pushBack t }).Perm
      (t.id :: s.shared.ids) := Queues.all_pushBack_perm.map PooledTemplate.id
  refine ⟨⟨hinv.coherent.object, hinv.coherent.call, hinv.coherent.apart⟩, ?_, fun pin => ?_⟩
  · exact hperm.nodup_iff.mpr (List.nodup_cons.mpr ⟨hid, hinv.nodup⟩)
  · refine (hinv.counted pin).trans ?_
    cases pin with
    | restore | reference => exact le_rfl
    | exclusive x =>
      by_cases hx : x = t.id
      · simp [Shared.pins, hx, hcons]
      · refine pins_exclusive_mono (fun hout => ?_) fun h => h
        rw [hperm.mem_iff, List.mem_cons, not_or]
        exact ⟨hx, hout⟩

theorem step_inv (l : Label) (s s' : St) (hok : Orderly l s) (h : next cfg l s s')
    (hinv : Inv cfg s) : Inv cfg s' := by
  cases h with
  | @task _ _ k i e h =>
    refine task_inv (fun sb hi => ?_) h hinv
    cases e with
    | quiet => trivial
    | starts | ends => exact hok sb hi
    | kills ok => exact hok
  | add hid hcons => exact add_inv hid hcons hinv

theorem pinned_of_pins {pin : Pin} (h : 0 < g.pins pin) : g.Pinned pin.id := by
  cases pin with
  | restore id => exact .inr (.inl h)
  | reference id => exact .inl h
  | exclusive id =>
    have hout : id ∈ g.consumed ∧ id ∉ g.ids := by
      by_contra hout
      simp [Shared.pins, hout] at h
    exact .inr (.inr hout)

theorem pinned_not_collected {id : String} (h : g.Pinned id) {total : ℕ} {t : PooledTemplate}
    (ht : t ∈ g.pool.gcBatch total) : t.id ≠ id := by
  rintro rfl
  obtain ⟨hmem, hidle⟩ := mem_gcBatch ht
  obtain ⟨hrestores, huse⟩ := idle_iff.mp hidle
  rcases h with h | h | ⟨-, hout⟩
  · rw [Tally.count_eq_zero.mpr huse] at h
    omega
  · rw [Tally.count_eq_zero.mpr hrestores] at h
    omega
  · exact hout (List.mem_map_of_mem hmem)

theorem Inv.safe (hinv : Inv cfg s) : Safe s := by
  intro sb hsb vm hvm halive id hid
  obtain ⟨i, hi⟩ := List.mem_iff_getElem?.mp hsb
  obtain ⟨pin, hpin, rfl⟩ := (hinv.coherent.object i sb hi).covered vm hvm halive id hid
  have hone := Multiset.one_le_count_iff_mem.mpr hpin
  have hle := weight_le_sum (w := fun sb : Sandbox => sb.held.count pin) hi
  have := hinv.counted pin
  have hpinned : s.shared.Pinned pin.id := pinned_of_pins (by omega)
  exact ⟨hpinned, fun total t ht => pinned_not_collected hpinned ht⟩

/-! ## Runs -/

section

variable {ok : Label → StatePred St} {os : List Sandbox} {ts : List (Option (ℕ × Call))} {k i : ℕ}

/-- A call makes a move. A state is the one before the call but for the sandbox and the task. -/
theorem reachable_move (hi : i < os.length) (hk : k < ts.length)
    (hr : Reachable Init (Guarded ok (next cfg))
      ⟨g, os.set i sb, ts.set k (c.map (Prod.mk i))⟩)
    (h : Move cfg e g sb c g' sb' c')
    (hok : ok (.task k i e) ⟨g, os.set i sb, ts.set k (c.map (Prod.mk i))⟩) :
    Reachable Init (Guarded ok (next cfg)) ⟨g', os.set i sb', ts.set k (c'.map (Prod.mk i))⟩ := by
  have hstep := hr.step ⟨.task k i e, hok,
    .task (.of_move (List.getElem?_set_self hk) (List.getElem?_set_self hi) h)⟩
  simpa only [List.set_set] using hstep

/-- The sandbox after a start that went through. -/
def started (cfg : Config) (p : TemplatePool) (st : Start) (sb : Sandbox) : Sandbox :=
  { sb with
    locked := false
    status := .running
    record := st.record cfg p sb.record
    vms := ⟨st.backing cfg, true, true⟩ :: sb.vms
    held := extraPins (st.record cfg p sb.record) + st.pin ::ₘ sb.held - st.returned }

def afterStart (cfg : Config) (g : Shared) (removed : String → Bool) (st : Start) (sb : Sandbox) :
    Shared :=
  (g.pinExtra (st.record cfg g.pool sb.record).envNonCopyPinned).leaseComplete removed st.template
    st.kind

/-- A start through the sandboxer can go through. -/
theorem reachable_started {t : PooledTemplate} (key : TemplateKey) (marker : Bool)
    (removed : String → Bool) (hi : i < os.length) (hk : k < ts.length)
    (hr : Reachable Init (Guarded ok (next cfg)) ⟨g, os.set i sb, ts.set k none⟩)
    (ht : g.acquire (Request.take g.pool (.key key)) marker = (g', some t))
    (hreg : sb.registered = true) (hfree : sb.locked = false)
    (hquiet : ∀ s, ok (.task k i .quiet) s)
    (hstart : ∀ s, s.objects[i]? = some sb → ok (.task k i .starts) s) :
    Reachable Init (Guarded ok (next cfg))
      ⟨afterStart cfg g' removed (.sandboxer g.pool t) sb,
        os.set i (started cfg g'.pool (.sandboxer g.pool t) sb), ts.set k none⟩ := by
  have h₁ := reachable_move hi hk hr (.lease (.key key) marker ht trivial) (hquiet _)
  have h₂ := reachable_move hi hk h₁ (.find hreg) (hquiet _)
  have h₃ := reachable_move hi hk h₂ (.lockStart hfree) (hstart _ (List.getElem?_set_self hi))
  have h₄ := reachable_move hi hk h₃ .record (hquiet _)
  have h₅ := reachable_move hi hk h₄ .restore (hquiet _)
  have h₆ := reachable_move hi hk h₅ .commit (hquiet _)
  have h₇ := reachable_move hi hk h₆ .pin (hquiet _)
  have h₈ := reachable_move hi hk h₇ .finish (hquiet _)
  exact reachable_move hi hk h₈ (.complete removed) (hquiet _)

end

theorem orderly_starts {k i : ℕ} (h : s.objects[i]? = some {}) :
    Orderly (.task k i .starts) s := by
  intro sb hsb
  rw [h] at hsb
  cases hsb
  exact ⟨rfl, nofun⟩

/-- Restores leave the memory on disk. -/
def onDemand : Config := ⟨true, .onDemand⟩

def image : PooledTemplate := ⟨"t1", ⟨"k"⟩, .environment, 0, "", 0, [], [], [], none, none, []⟩

/-- Another template, of another key. -/
def otherImage : PooledTemplate := { image with id := "t2", key := ⟨"k2"⟩ }

/-- A pool with one template, in which every template that is not pinned is collected. -/
def onePool : TemplatePool :=
  ⟨Queues.empty.pushBack ⟨"k"⟩ image, .empty, .empty, .empty, 4, 4, 0, .shared, true⟩

def twoSandboxes : St := ⟨⟨onePool, ∅⟩, [{}, {}], [none, none]⟩

theorem twoSandboxes_init : Init twoSandboxes := by
  refine ⟨by decide, ?_, ?_⟩
  · simp [twoSandboxes]
  · simp [twoSandboxes]

theorem zero_lt_pair {α : Type} (a b : α) : 0 < [a, b].length := Nat.zero_lt_two
theorem one_lt_pair {α : Type} (a b : α) : 1 < [a, b].length := Nat.one_lt_two

/-! ## No template is lost -/

/-- In every run in which starts and ends of a sandbox are orderly and the starts that fail can stop
their VMs, the template of every VM that may still run and pages from it is pinned. -/
theorem template_pinned (cfg : Config) (h : Reachable Init (Guarded Orderly (next cfg)) s) :
    Safe s := by
  have hinv : Inv cfg s := h.guarded_invariant (fun _ => init_inv) step_inv
  exact hinv.safe

/-- A start that goes through: the sandbox keeps a reference for its VM. -/
theorem template_pinned_start :
    ∃ s : St, Reachable Init (Guarded Orderly (next onDemand)) s ∧
      (∃ sb ∈ s.objects, ∃ vm ∈ sb.vms, vm.alive = true ∧ vm.template = some "t1") ∧ Safe s := by
  have h₀ : Reachable Init (Guarded Orderly (next onDemand)) twoSandboxes :=
    .init twoSandboxes_init
  have h := reachable_started ⟨"k"⟩ true (fun _ => true) (zero_lt_pair {} {})
    (zero_lt_pair none none) h₀ rfl rfl rfl (fun _ => trivial) fun _ => orderly_starts
  exact ⟨_, h, ⟨_, .head _, _, .head _, rfl, rfl⟩, template_pinned onDemand h⟩

/-! ## What each condition is for -/

/-- The condition, but for the moves with some effects. -/
def OrderlyBut (free : Effect → Prop) : Label → StatePred St
  | .task k i e, s => free e ∨ Orderly (.task k i e) s
  | .add _, _ => True

/-- A VM may still run and page from a template that nothing pins and that the pool has lost. -/
def Lost (id : String) : StatePred St := fun s =>
  (∃ sb ∈ s.objects, ∃ vm ∈ sb.vms, vm.alive = true ∧ vm.template = some id) ∧
    ¬ s.shared.Pinned id ∧ id ∉ s.shared.ids

theorem Lost.not_safe {id : String} (h : Lost id s) : ¬ Safe s := by
  obtain ⟨⟨sb, hsb, vm, hvm, halive, hid⟩, hpin, -⟩ := h
  intro hsafe
  exact hpin (hsafe sb hsb vm hvm halive id hid).1

theorem not_pinned {id : String} (huse : g.pool.inUseCount.count id = 0)
    (hrestores : g.pool.inFlightRestores.count id = 0) (hout : id ∉ g.consumed) :
    ¬ g.Pinned id := by
  rintro (h | h | ⟨h, -⟩)
  · omega
  · omega
  · exact hout h

/-- `post_start` fails, the extra reference is given back, the VM cannot be stopped, and the lease
ends. -/
theorem failed_stop_run : ∃ s : St,
    Reachable Init (Guarded (OrderlyBut fun e => e = .kills false) (next onDemand)) s ∧
      Lost "t1" s := by
  have hi := zero_lt_pair ({} : Sandbox) {}
  have hk := zero_lt_pair (none : Option (ℕ × Call)) none
  have h₀ : Reachable Init (Guarded (OrderlyBut fun e => e = .kills false) (next onDemand))
      twoSandboxes := .init twoSandboxes_init
  have h₁ := reachable_move hi hk h₀ (.lease (.key ⟨"k"⟩) true rfl trivial) (.inr trivial)
  have h₂ := reachable_move hi hk h₁ (.find rfl) (.inr trivial)
  have h₃ := reachable_move hi hk h₂ (.lockStart rfl) (.inr (orderly_starts rfl))
  have h₄ := reachable_move hi hk h₃ .record (.inr trivial)
  have h₅ := reachable_move hi hk h₄ .restore (.inr trivial)
  have h₆ := reachable_move hi hk h₅ .commit (.inr trivial)
  have h₇ := reachable_move hi hk h₆ .pin (.inr trivial)
  have h₈ := reachable_move hi hk h₇ (.unpin fun _ => true) (.inr trivial)
  have h₉ := reachable_move hi hk h₈ (.rollbackStop false) (.inl rfl)
  have h := reachable_move hi hk h₉ (.leaseFail (fun _ => true) true) (.inr trivial)
  exact ⟨_, h, ⟨_, .head _, _, .head _, rfl, rfl⟩, not_pinned rfl rfl (Finset.notMem_empty _),
    by decide⟩

/-- Two deletes find a sandbox. The second gives back the reference of another sandbox. -/
theorem second_delete_run : ∃ s : St,
    Reachable Init (Guarded (OrderlyBut fun e => e = .ends) (next onDemand)) s ∧ Lost "t1" s := by
  have h₀ : Reachable Init (Guarded (OrderlyBut fun e => e = .ends) (next onDemand))
      twoSandboxes := .init twoSandboxes_init
  have hk₀ := zero_lt_pair (none : Option (ℕ × Call))
  have h₁ := reachable_started ⟨"k"⟩ true (fun _ => true) (one_lt_pair {} {}) (hk₀ none) h₀ rfl rfl
    rfl (fun _ => .inr trivial) fun _ h => .inr (orderly_starts h)
  have h₂ := reachable_started ⟨"k"⟩ true (fun _ => true) (zero_lt_pair {} _) (hk₀ none) h₁ rfl rfl
    rfl (fun _ => .inr trivial) fun _ h => .inr (orderly_starts h)
  have hi := zero_lt_pair ({} : Sandbox)
  -- both deletes find the sandbox
  have h₃ := reachable_move (hi _) (hk₀ none) h₂ (.findDelete false rfl) (.inr trivial)
  have h₄ := reachable_move (c := none) (hi _) (one_lt_pair _ none) h₃ (.findDelete false rfl)
    (.inr trivial)
  -- the first goes through
  have h₅ := reachable_move (c := some _) (hi _) (hk₀ _) h₄ (.lockDelete rfl) (.inl rfl)
  have h₆ := reachable_move (hi _) (hk₀ _) h₅ (.deleteStop rfl) (.inr trivial)
  have h₇ := reachable_move (hi _) (hk₀ _) h₆ (.deleteGive (fun _ => true) true) (.inr trivial)
  have h₈ := reachable_move (hi _) (hk₀ _) h₇ .remove (.inr trivial)
  -- and then the second
  have h₉ := reachable_move (c := some _) (hi _) (one_lt_pair _ none) h₈ (.lockDelete rfl)
    (.inl rfl)
  have h₁₀ := reachable_move (hi _) (one_lt_pair _ none) h₉ (.deleteStop rfl) (.inr trivial)
  have h := reachable_move (hi _) (one_lt_pair _ none) h₁₀ (.deleteGive (fun _ => true) true)
    (.inr trivial)
  exact ⟨_, h, ⟨_, .tail _ (.head _), _, .head _, rfl, rfl⟩,
    not_pinned rfl rfl (Finset.notMem_empty _), by decide⟩

/-- The VM of a sandbox ends, and the sandbox is started again before the monitor has seen it. The
monitor marks the sandbox as stopped, and its delete leaves the new VM alone. -/
theorem early_start_run : ∃ s : St,
    Reachable Init (Guarded (OrderlyBut fun e => e = .starts) (next onDemand)) s ∧
      Lost "t2" s := by
  have h₀ : Reachable Init (Guarded (OrderlyBut fun e => e = .starts) (next onDemand))
      twoSandboxes := .init twoSandboxes_init
  have hi := zero_lt_pair ({} : Sandbox) {}
  have hk := zero_lt_pair (none : Option (ℕ × Call)) none
  have h₁ := reachable_started ⟨"k"⟩ true (fun _ => true) hi hk h₀ rfl rfl rfl
    (fun _ => .inr trivial) fun _ _ => .inl rfl
  have h₂ := reachable_move (c := none) hi hk h₁ (.exit 0 rfl) (.inr trivial)
  have h₃ := h₂.step ⟨.add otherImage, trivial, .add (by decide) (Finset.notMem_empty _)⟩
  have h₄ := reachable_started ⟨"k2"⟩ true (fun _ => true) hi hk h₃ rfl rfl rfl
    (fun _ => .inr trivial) fun _ _ => .inl rfl
  have h₅ := reachable_move (c := none) hi hk h₄ (.monitor 1 rfl rfl rfl rfl) (.inr trivial)
  have h₆ := reachable_move (c := none) hi hk h₅ (.findDelete false rfl) (.inr trivial)
  have h₇ := reachable_move hi hk h₆ (.lockDelete rfl) (.inr (by rintro sb ⟨⟩; rfl))
  have h₈ := reachable_move hi hk h₇ (.deleteStop rfl) (.inr trivial)
  have h := reachable_move hi hk h₈ (.deleteGive (fun _ => true) true) (.inr trivial)
  exact ⟨_, h, ⟨_, .head _, _, .head _, rfl, rfl⟩,
    not_pinned rfl rfl (Finset.notMem_empty _), by decide⟩

/-- With any one of the three conditions left out, a run gets to a VM whose template is not pinned
and was collected. -/
theorem each_condition_needed :
    (∃ s : St, Reachable Init (Guarded (OrderlyBut fun e => e = .kills false) (next onDemand)) s ∧
      Lost "t1" s ∧ ¬ Safe s) ∧
    (∃ s : St, Reachable Init (Guarded (OrderlyBut fun e => e = .ends) (next onDemand)) s ∧
      Lost "t1" s ∧ ¬ Safe s) ∧
    (∃ s : St, Reachable Init (Guarded (OrderlyBut fun e => e = .starts) (next onDemand)) s ∧
      Lost "t2" s ∧ ¬ Safe s) := by
  obtain ⟨s₁, h₁, hlost₁⟩ := failed_stop_run
  obtain ⟨s₂, h₂, hlost₂⟩ := second_delete_run
  obtain ⟨s₃, h₃, hlost₃⟩ := early_start_run
  exact ⟨⟨s₁, h₁, hlost₁, hlost₁.not_safe⟩, ⟨s₂, h₂, hlost₂, hlost₂.not_safe⟩,
    ⟨s₃, h₃, hlost₃, hlost₃.not_safe⟩⟩

end Kuasar.TemplatePins

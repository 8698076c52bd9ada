import Kuasar.Sandbox.PinTrades

/-!
# Sandbox.PinCalls — sandboxes that hold the pins of their VMs

A sandbox whose VM may page from a template holds a pin on it (`SandboxInv.covered`): a start hands
its pin to the sandbox when it has a VM, and takes it back when it has stopped it. One call at a
time is busy with a sandbox; to it belong the steps in which VM and pins change (`Move.self`). The
others see processes end (`Move.frame`).
-/

namespace Kuasar.TemplatePins

open TemplateStart

/-! ## Sandboxes -/

/-- No process of these pages from a template. -/
def Dark (vms : List Vm) : Prop := ∀ vm ∈ vms, vm.alive = true → vm.template = none

/-- A sandbox that no call works on: one that counts as stopped has no VM, and the sandbox holds
what its record gives back. -/
structure Rest (sb : Sandbox) : Prop where
  stopped : sb.status = .stopped → Dark sb.vms
  record : pinsOf sb.record.onDelete ≤ sb.held

/-- The sandbox holds a pin on the template of each of its VMs, its earlier VMs are over, and so is
every VM once a delete has let go of the lock. -/
structure SandboxInv (sb : Sandbox) : Prop where
  covered : ∀ vm ∈ sb.vms, vm.alive = true → ∀ id, vm.template = some id →
    ∃ pin ∈ sb.held, pin.id = id
  older : ∀ vm ∈ sb.vms.tail, vm.Over
  rest : sb.locked = false → sb.ending = false → Rest sb
  ended : sb.locked = false → sb.ending = true → Dark sb.vms

/-- A start has the lock of the sandbox. -/
structure Inside (sb : Sandbox) : Prop where
  locked : sb.locked = true
  ending : sb.ending = false

/-- The sandbox has the VM of the start. -/
structure Launched (cfg : Config) (st : Start) (sb : Sandbox) : Prop extends Inside sb where
  vms : ∀ vm ∈ sb.vms, vm.alive = true → vm.template = none ∨ vm.template = st.backing cfg

def Recorded (cfg : Config) (st : Start) (r : RestoreMetadata) : Prop :=
  ∃ p before, r = st.record cfg p before

def CallInv (cfg : Config) (sb : Sandbox) : Call → Prop
  | .leased st => st.service = false
  | .found _ | .serviceFound | .deleteFound _ => True
  | .entered | .starting _ => Inside sb ∧ (∀ vm ∈ sb.vms, vm.Over) ∧ Rest sb
  | .recorded st => Inside sb ∧ (∀ vm ∈ sb.vms, vm.Over) ∧ Recorded cfg st sb.record
  | .restored st => Launched cfg st sb ∧ st.pin ∈ sb.held ∧ Recorded cfg st sb.record
  | .committed st => Launched cfg st sb ∧ st.pin ∈ sb.held ∧ Recorded cfg st sb.record ∧
      sb.status = .running
  | .pinned st => Launched cfg st sb ∧ st.pin ::ₘ extraPins sb.record ≤ sb.held ∧
      Recorded cfg st sb.record ∧ sb.status = .running
  | .unpinned st => Launched cfg st sb ∧ st.pin ∈ sb.held ∧ sb.record = {} ∧ sb.status = .running
  | .failing st | .completing st => st.service = true → Inside sb ∧ Rest sb
  | .deleting _ d => sb.locked = true ∧ sb.ending = true ∧ Rest sb ∧
      pinsOf d = pinsOf sb.record.onDelete
  | .emptied destroy d => sb.locked = !destroy ∧ sb.ending = true ∧ Dark sb.vms ∧
      pinsOf sb.record.onDelete ≤ sb.held ∧ pinsOf d = pinsOf sb.record.onDelete
  | .gave destroy => sb.locked = !destroy ∧ sb.ending = true ∧ Dark sb.vms

def Call.busy : Call → Bool
  | .entered | .starting _ | .recorded _ | .restored _ | .committed _ | .pinned _ | .unpinned _
  | .deleting _ _ | .emptied _ _ | .gave _ => true
  | .failing st | .completing st => st.service
  | .leased _ | .found _ | .serviceFound | .deleteFound _ => false

/-- Two calls on one sandbox are not both busy. -/
def Apart (c d : Call) : Prop := (c.busy && d.busy) = false

/-- The guard, as a condition on the sandbox. -/
def OrderlyMove : Effect → Sandbox → Prop
  | .quiet, _ => True
  | .starts, sb => sb.ending = false ∧ ∀ vm ∈ sb.vms, vm.Over
  | .ends, sb => sb.ending = false
  | .kills ok, _ => ok = true

variable {cfg : Config} {e : Effect} {g g' : Shared} {sb sb' : Sandbox} {c c' : Option Call}
  {st : Start}

variable {m : Call} {vm : Vm} {vms vms' : List Vm} {i : ℕ} {ok : Bool} {held : Multiset Pin}

theorem CallInv.taken (h : CallInv cfg sb m) (hb : m.busy = true) :
    sb.locked = true ∨ sb.ending = true := by
  cases m with
  | leased | found | serviceFound | deleteFound => simp [Call.busy] at hb
  | entered | starting | recorded | restored | committed | pinned | unpinned =>
    exact .inl h.1.locked
  | failing | completing => exact .inl (h hb).1.locked
  | deleting | emptied | gave => exact .inr h.2.1

/-! ## What other calls do to a sandbox -/

/-- A process that is no more than it was. -/
def Vm.Fades (vm vm' : Vm) : Prop :=
  vm'.template = vm.template ∧ (vm'.alive = true → vm.alive = true) ∧
    (vm'.monitored = true → vm.monitored = true)

theorem Vm.Fades.refl (vm : Vm) : vm.Fades vm := ⟨rfl, id, id⟩

theorem Vm.Over.fades {vm' : Vm} (h : vm.Over) (hf : vm.Fades vm') : vm'.Over := by
  refine ⟨fun halive => ?_, ?_⟩
  · rw [hf.1]
    exact h.template (hf.2.1 halive)
  · by_contra hm
    have := hf.2.2 (by simpa using hm)
    rw [h.monitored] at this
    cases this

/-- What a call that is not busy does to the sandbox: processes end, and one that is not locked may
count as stopped. -/
structure Frame (sb sb' : Sandbox) : Prop where
  locked : sb'.locked = sb.locked
  ending : sb'.ending = sb.ending
  record : sb'.record = sb.record
  held : sb'.held = sb.held
  status : sb'.status = sb.status ∨ sb.locked = false
  vms : List.Forall₂ Vm.Fades sb.vms sb'.vms

theorem fades_refl (vms : List Vm) : List.Forall₂ Vm.Fades vms vms :=
  List.forall₂_same.mpr fun vm _ => .refl vm

theorem Frame.refl (sb : Sandbox) : Frame sb sb :=
  ⟨rfl, rfl, rfl, rfl, .inl rfl, fades_refl _⟩

theorem fades_modifyHead {f : Vm → Vm} (hf : ∀ vm : Vm, vm.Fades (f vm)) (vms : List Vm) :
    List.Forall₂ Vm.Fades vms (vms.modifyHead f) := by
  cases vms with
  | nil => exact .nil
  | cons vm vms => exact .cons (hf vm) (fades_refl vms)

theorem fades_set {vm' : Vm} (hi : vms[i]? = some vm) (hf : vm.Fades vm') :
    List.Forall₂ Vm.Fades vms (vms.set i vm') := by
  induction vms generalizing i with
  | nil => simp at hi
  | cons v vms ih =>
    cases i with
    | zero =>
      have hv : v = vm := by simpa using hi
      subst hv
      exact .cons hf (fades_refl vms)
    | succ i => exact .cons (.refl v) (ih (by simpa using hi))

theorem fades_tail (h : List.Forall₂ Vm.Fades vms vms') :
    List.Forall₂ Vm.Fades vms.tail vms'.tail := by
  cases h with
  | nil => exact .nil
  | cons _ h => exact h

/-- What every process that fades keeps, the faded processes have. -/
theorem forall_fades {P : Vm → Prop} (h : List.Forall₂ Vm.Fades vms vms')
    (hP : ∀ vm vm' : Vm, vm.Fades vm' → P vm → P vm') (hv : ∀ vm ∈ vms, P vm) :
    ∀ vm ∈ vms', P vm := by
  induction h with
  | nil => exact hv
  | cons hf _ ih =>
    rw [List.forall_mem_cons] at hv ⊢
    exact ⟨hP _ _ hf hv.1, ih hv.2⟩

theorem Dark.fades (h : Dark vms) (hf : List.Forall₂ Vm.Fades vms vms') : Dark vms' := by
  refine forall_fades hf ?_ h
  intro vm vm' hf hdark halive
  rw [hf.1]
  exact hdark (hf.2.1 halive)

theorem over_fades (h : ∀ vm ∈ vms, vm.Over) (hf : List.Forall₂ Vm.Fades vms vms') :
    ∀ vm ∈ vms', vm.Over :=
  forall_fades hf (fun _ _ hf hover => hover.fades hf) h

theorem Rest.frame (h : Rest sb) (hf : Frame sb sb') (hlock : sb.locked = true) : Rest sb' := by
  refine ⟨fun hst => ?_, ?_⟩
  · have hsame := hf.status.resolve_right (by simp [hlock])
    exact (h.stopped (hsame ▸ hst)).fades hf.vms
  · rw [hf.record, hf.held]
    exact h.record

theorem Inside.frame (h : Inside sb) (hf : Frame sb sb') : Inside sb' :=
  ⟨hf.locked.trans h.locked, hf.ending.trans h.ending⟩

theorem Launched.frame (h : Launched cfg st sb) (hf : Frame sb sb') : Launched cfg st sb' := by
  refine ⟨h.toInside.frame hf, ?_⟩
  refine forall_fades hf.vms ?_ h.vms
  intro vm vm' hfade hvm halive
  rw [hfade.1]
  exact hvm (hfade.2.1 halive)

theorem CallInv.frame (h : CallInv cfg sb m) (hf : Frame sb sb') : CallInv cfg sb' m := by
  cases m with
  | leased | found | serviceFound | deleteFound => exact h
  | entered | starting =>
    obtain ⟨hin, hover, hrest⟩ := h
    exact ⟨hin.frame hf, over_fades hover hf.vms, hrest.frame hf hin.locked⟩
  | recorded st =>
    obtain ⟨hin, hover, hrec⟩ := h
    refine ⟨hin.frame hf, over_fades hover hf.vms, ?_⟩
    rw [hf.record]
    exact hrec
  | restored st =>
    obtain ⟨hl, hpin, hrec⟩ := h
    simp only [CallInv, hf.held, hf.record]
    exact ⟨hl.frame hf, hpin, hrec⟩
  | committed st | pinned st | unpinned st =>
    obtain ⟨hl, hpin, hrec, hst⟩ := h
    simp only [CallInv, hf.held, hf.record, hf.status.resolve_right (by simp [hl.locked])]
    exact ⟨hl.frame hf, hpin, hrec, hst⟩
  | failing st | completing st =>
    intro hs
    obtain ⟨hin, hrest⟩ := h hs
    exact ⟨hin.frame hf, hrest.frame hf hin.locked⟩
  | deleting destroy d =>
    obtain ⟨hlock, hend, hrest, hd⟩ := h
    simp only [CallInv, hf.locked, hf.ending, hf.record]
    exact ⟨hlock, hend, hrest.frame hf hlock, hd⟩
  | emptied destroy d =>
    obtain ⟨hlock, hend, hdark, hrec, hd⟩ := h
    simp only [CallInv, hf.locked, hf.ending, hf.record, hf.held]
    exact ⟨hlock, hend, hdark.fades hf.vms, hrec, hd⟩
  | gave destroy =>
    obtain ⟨hlock, hend, hdark⟩ := h
    simp only [CallInv, hf.locked, hf.ending]
    exact ⟨hlock, hend, hdark.fades hf.vms⟩

theorem frame_kill (sb : Sandbox) : Frame sb sb.kill := by
  refine ⟨rfl, rfl, rfl, rfl, .inl rfl, fades_modifyHead (fun vm => ?_) _⟩
  exact ⟨rfl, nofun, id⟩

theorem stop_cases (h : sb.stop ok = some sb') :
    (sb.status = .stopped ∧ sb' = sb) ∨ sb' = sb.kill := by
  unfold Sandbox.stop at h
  split at h
  · rename_i hst
    exact .inl ⟨hst, (Option.some.inj h).symm⟩
  · split at h
    · exact .inr (Option.some.inj h).symm
    · cases h

theorem frame_stop (h : sb.stop ok = some sb') : Frame sb sb' := by
  rcases stop_cases h with ⟨-, rfl⟩ | rfl
  · exact .refl sb'
  · exact frame_kill sb

theorem frame_exit (hi : sb.vms[i]? = some vm) :
    Frame sb { sb with vms := sb.vms.set i { vm with alive := false } } :=
  ⟨rfl, rfl, rfl, rfl, .inl rfl, fades_set hi ⟨rfl, nofun, id⟩⟩

theorem frame_monitor (hfree : sb.locked = false) (hi : sb.vms[i]? = some vm) :
    Frame sb { sb with
      status := .stopped, vms := sb.vms.set i { vm with monitored := false } } :=
  ⟨rfl, rfl, rfl, rfl, .inr hfree, fades_set hi ⟨rfl, id, nofun⟩⟩

/-- Nothing is asked of a call that is done. -/
theorem forall_of_none {P : Call → Prop} (d : Call) (h : none = some d) : P d := by
  cases h

/-- A call that is not busy leaves the sandbox to the others, or takes the lock. -/
theorem Move.frame (h : Move cfg e g sb c g' sb' c') (hc : ∀ d, c = some d → d.busy = false)
    (hok : OrderlyMove e sb) (hinv : ∀ d, c = some d → CallInv cfg sb d) :
    (Frame sb sb' ∧ ∀ d, c' = some d → d.busy = false) ∨
      (sb.locked = false ∧ sb.ending = false) := by
  cases h with
  | miss | mismatch | refuse => exact .inl ⟨.refl sb, forall_of_none⟩
  | lease | find | findService | findDelete =>
    refine .inl ⟨.refl sb, fun d hd => ?_⟩
    cases hd
    rfl
  | checkFail =>
    refine .inl ⟨.refl sb, fun d hd => ?_⟩
    cases hd
    exact hinv _ rfl
  | lockStart hfree | lockService hfree => exact .inr ⟨hfree, hok.1⟩
  | lockDelete hfree => exact .inr ⟨hfree, hok⟩
  | @complete _ _ st | @leaseFail _ _ st =>
    have hs : st.service = false := hc _ rfl
    rw [hs]
    exact .inl ⟨.refl sb, forall_of_none⟩
  | stop ok hfree hstop => exact .inl ⟨frame_stop hstop, forall_of_none⟩
  | exit i hi => exact .inl ⟨frame_exit hi, forall_of_none⟩
  | monitor i hfree hi => exact .inl ⟨frame_monitor hfree hi, forall_of_none⟩
  | serviceMiss | serviceMismatch | serviceLease | preFail | record | restoreFail | restore
  | restoreKill | commit | pin | unpin | rollbackStop | finish | deleteStopFail | deleteStop
  | deleteFail | deleteGive | remove =>
    have hb := hc _ rfl
    simp [Call.busy] at hb

/-! ## What a move does to its own sandbox -/

section

variable (sb) (b : Bool)

@[simp] theorem unlock_vms : (sb.unlock b).vms = sb.vms := by cases b <;> rfl
@[simp] theorem unlock_held : (sb.unlock b).held = sb.held := by cases b <;> rfl
@[simp] theorem unlock_record : (sb.unlock b).record = sb.record := by cases b <;> rfl
@[simp] theorem unlock_status : (sb.unlock b).status = sb.status := by cases b <;> rfl
@[simp] theorem unlock_ending : (sb.unlock b).ending = sb.ending := by cases b <;> rfl

theorem unlock_locked : (sb.unlock b).locked = (sb.locked && !b) := by
  cases b <;> simp [Sandbox.unlock]

end

theorem Rest.of_dark (hdark : Dark sb.vms) (hrec : pinsOf sb.record.onDelete ≤ sb.held) : Rest sb :=
  ⟨fun _ => hdark, hrec⟩

/-- A sandbox with no record. -/
theorem Rest.of_cleared (hdark : Dark sb.vms) (hrec : sb.record = {}) : Rest sb := by
  refine .of_dark hdark ?_
  rw [hrec]
  exact Multiset.zero_le _

theorem dark_of_over (h : ∀ vm ∈ vms, vm.Over) : Dark vms :=
  fun vm hvm => (h vm hvm).template

/-- There is a pin on the template of each of the processes. -/
def Covered (vms : List Vm) (held : Multiset Pin) : Prop :=
  ∀ vm ∈ vms, vm.alive = true → ∀ id, vm.template = some id → ∃ pin ∈ held, pin.id = id

theorem Dark.covered (h : Dark vms) (held : Multiset Pin) : Covered vms held := by
  intro vm hvm halive id hid
  rw [h vm hvm halive] at hid
  cases hid

/-- The VM of a start is covered by any pin on its template. -/
theorem Launched.covered (h : Launched cfg st sb)
    (hheld : ∀ id, st.backing cfg = some id → ∃ pin ∈ held, pin.id = id) :
    Covered sb.vms held := by
  intro vm hvm halive id hid
  rcases h.vms vm hvm halive with hnone | hback
  · rw [hnone] at hid
    cases hid
  · exact hheld id (hback ▸ hid)

theorem pin_id (st : Start) : st.pin.id = st.template.id := by
  unfold Start.pin
  cases st.kind <;> rfl

theorem covered_pin (h : st.pin ∈ held) (id : String) (hid : st.backing cfg = some id) :
    ∃ pin ∈ held, pin.id = id := by
  refine ⟨st.pin, h, ?_⟩
  unfold Start.backing at hid
  split at hid
  · cases hid
  · rw [pin_id]
    exact Option.some.inj hid

theorem dark_kill (h : ∀ vm ∈ sb.vms.tail, vm.Over) : Dark sb.kill.vms := by
  unfold Sandbox.kill
  cases hv : sb.vms with
  | nil => exact fun _ hvm => absurd hvm (by simp)
  | cons v vms =>
    rw [hv] at h
    intro vm hvm halive
    rcases List.mem_cons.mp hvm with rfl | hvm
    · cases halive
    · exact (h vm hvm).template halive

theorem tail_modifyHead (f : Vm → Vm) (vms : List Vm) : (vms.modifyHead f).tail = vms.tail := by
  cases vms <;> rfl

theorem SandboxInv.of_locked (hlock : sb.locked = true) (hcov : Covered sb.vms sb.held)
    (holder : ∀ vm ∈ sb.vms.tail, vm.Over) : SandboxInv sb := by
  refine ⟨hcov, holder, ?_, ?_⟩
  · intro hfree
    rw [hlock] at hfree
    cases hfree
  · intro hfree
    rw [hlock] at hfree
    cases hfree

/-- A start leaves the lock of a sandbox that is as it was found. -/
theorem SandboxInv.unlock (hs : SandboxInv sb) (hend : sb.ending = false) (hrest : Rest sb)
    (b : Bool) : SandboxInv (sb.unlock b) := by
  refine ⟨by simpa using hs.covered, by simpa using hs.older, ?_, ?_⟩
  · intro _ _
    exact ⟨by simpa using hrest.stopped, by simpa using hrest.record⟩
  · intro _ hend'
    rw [unlock_ending, hend] at hend'
    cases hend'

/-- A sandbox that has ended and whose VMs are gone: nothing is asked of its pins. -/
theorem SandboxInv.of_ended (hend : sb.ending = true) (hdark : Dark sb.vms)
    (hcov : Covered sb.vms sb.held) (holder : ∀ vm ∈ sb.vms.tail, vm.Over) : SandboxInv sb := by
  refine ⟨hcov, holder, ?_, fun _ _ => hdark⟩
  intro _ hend'
  rw [hend] at hend'
  cases hend'

/-- A delete leaves the lock of a sandbox with no VM. -/
theorem SandboxInv.unlock_ended (hs : SandboxInv sb) (hend : sb.ending = true)
    (hdark : Dark sb.vms) (b : Bool) : SandboxInv (sb.unlock b) := by
  apply SandboxInv.of_ended
  · rw [unlock_ending, hend]
  · simpa using hdark
  · rw [unlock_vms, unlock_held]
    exact hs.covered
  · simpa using hs.older

theorem SandboxInv.frame (hs : SandboxInv sb) (hf : Frame sb sb')
    (hstop : sb.locked = false → sb'.status = .stopped → sb.status = .stopped ∨ Dark sb.vms) :
    SandboxInv sb' := by
  have hcov : Covered sb'.vms sb.held := by
    refine forall_fades hf.vms ?_ hs.covered
    intro vm vm' hfade hvm halive
    rw [hfade.1]
    exact hvm (hfade.2.1 halive)
  have holder : ∀ vm ∈ sb'.vms.tail, vm.Over := over_fades hs.older (fades_tail hf.vms)
  refine ⟨hf.held ▸ hcov, holder, ?_, ?_⟩
  · intro hfree hend
    rw [hf.locked] at hfree
    rw [hf.ending] at hend
    have hrest := hs.rest hfree hend
    refine ⟨fun hst => ?_, ?_⟩
    · exact ((hstop hfree hst).elim hrest.stopped id).fades hf.vms
    · rw [hf.record, hf.held]
      exact hrest.record
  · intro hfree hend
    rw [hf.locked] at hfree
    rw [hf.ending] at hend
    exact (hs.ended hfree hend).fades hf.vms

/-- Only the last VM is monitored: when it has ended, there is none. -/
theorem SandboxInv.dark_of_monitored (hs : SandboxInv sb) (hi : sb.vms[i]? = some vm)
    (hm : vm.monitored = true) (hdead : vm.alive = false) : Dark sb.vms := by
  cases hv : sb.vms with
  | nil => exact fun _ hvm => absurd hvm (by simp)
  | cons v vms =>
    have holder := hs.older
    rw [hv] at hi holder
    cases i with
    | zero =>
      have hvm : v = vm := by simpa using hi
      subst hvm
      intro w hw halive
      rcases List.mem_cons.mp hw with rfl | hw
      · rw [hdead] at halive
        cases halive
      · exact (holder w hw).template halive
    | succ i =>
      have hmem : vm ∈ vms := List.mem_of_getElem? (by simpa using hi)
      have hfalse := (holder vm hmem).monitored
      rw [hm] at hfalse
      cases hfalse

/-- A stop that succeeds leaves no VM: one that has stopped had none, and else it is killed. -/
theorem SandboxInv.dark_of_stop (hs : SandboxInv sb) (hrest : Rest sb) (h : sb.stop ok = some sb') :
    Dark sb'.vms := by
  rcases stop_cases h with ⟨hst, rfl⟩ | rfl
  · exact hrest.stopped hst
  · exact dark_kill hs.older

/-- The pin of the lease is left when the extra pin is given back. -/
theorem pin_mem_sub {extra : Multiset Pin} (h : st.pin ::ₘ extra ≤ held) :
    st.pin ∈ held - extra := by
  have hle := Multiset.sub_le_sub_right (u := extra) h
  refine Multiset.mem_of_le hle ?_
  rw [← Multiset.singleton_add, Multiset.add_sub_cancel_right]
  exact Multiset.mem_singleton_self _

/-- A start is done with the sandbox and still has its lock. -/
structure Settled (sb : Sandbox) : Prop where
  inv : SandboxInv sb
  inside : Inside sb
  rest : Rest sb

/-- It leaves the lock, unless the service ends the lease first. -/
theorem Settled.leave (h : Settled sb) (st : Start) (hm : m = .failing st ∨ m = .completing st) :
    SandboxInv (sb.unlock (!st.service)) ∧
      ∀ d, some m = some d → CallInv cfg (sb.unlock (!st.service)) d := by
  refine ⟨h.inv.unlock h.inside.ending h.rest _, ?_⟩
  have hcall : st.service = true →
      Inside (sb.unlock (!st.service)) ∧ Rest (sb.unlock (!st.service)) := by
    intro hs
    rw [hs]
    exact ⟨h.inside, h.rest⟩
  rintro d ⟨⟩
  rcases hm with rfl | rfl <;> exact hcall

/-- The VM of a start that failed was killed, and its record cleared. -/
theorem Launched.settled (h : Launched cfg st sb) (hs : SandboxInv sb) (held : Multiset Pin) :
    Settled { sb.kill with record := {}, held := held } := by
  have hdark := dark_kill hs.older
  have holder : ∀ vm ∈ sb.kill.vms.tail, vm.Over := by
    rw [Sandbox.kill, tail_modifyHead]
    exact hs.older
  exact ⟨.of_locked h.locked (hdark.covered _) holder, ⟨h.locked, h.ending⟩,
    .of_cleared hdark rfl⟩

theorem restoreFail_settled {left : List Vm} (hleft : left = [] ∨ left = [⟨none, true, false⟩])
    (hin : Inside sb) (hover : ∀ vm ∈ sb.vms, vm.Over) :
    Settled { sb with record := {}, vms := left ++ sb.vms } := by
  have hover' : ∀ vm ∈ left ++ sb.vms, vm.Over := by
    rcases hleft with rfl | rfl
    · exact hover
    · rw [List.singleton_append, List.forall_mem_cons]
      exact ⟨⟨fun _ => rfl, rfl⟩, hover⟩
  have hdark := dark_of_over hover'
  refine ⟨.of_locked hin.locked (hdark.covered _) ?_, ⟨hin.locked, hin.ending⟩,
    .of_cleared hdark rfl⟩
  exact fun vm hvm => hover' vm (List.mem_of_mem_tail hvm)

theorem finish_settled (hl : Launched cfg st sb) (hs : SandboxInv sb)
    (hpins : st.pin ::ₘ extraPins sb.record ≤ sb.held) (hrec : Recorded cfg st sb.record)
    (hst : sb.status = .running) : Settled { sb with held := sb.held - st.returned } := by
  have hkept : st.kept sb.record ≤ sb.held - st.returned := Multiset.sub_le_sub_right hpins
  obtain ⟨p, before, hr⟩ := hrec
  refine ⟨.of_locked hl.locked (hl.covered fun id hid => ?_) hs.older, ⟨hl.locked, hl.ending⟩,
    ⟨fun hstop => ?_, ?_⟩⟩
  · obtain ⟨pin, hpin, heq⟩ := covered_record cfg st p before hid
    exact ⟨pin, Multiset.mem_of_le hkept (hr ▸ hpin), heq⟩
  · have hstop' : sb.status = .stopped := hstop
    rw [hst] at hstop'
    cases hstop'
  · have hle := pinsOf_record cfg st p before
    rw [← hr] at hle
    exact hle.trans hkept

/-- The VM is up: the pin of the lease is in the hands of the sandbox. -/
theorem restore_launched (cfg : Config) (st : Start) (hin : Inside sb)
    (hover : ∀ vm ∈ sb.vms, vm.Over) :
    Launched cfg st { sb with
      vms := ⟨st.backing cfg, true, false⟩ :: sb.vms, held := st.pin ::ₘ sb.held } := by
  refine ⟨⟨hin.locked, hin.ending⟩, ?_⟩
  intro vm hvm halive
  rcases List.mem_cons.mp hvm with rfl | hvm
  · exact .inr rfl
  · exact .inl ((hover vm hvm).template halive)

/-- The monitor is all that is new. -/
theorem pin_launched (hl : Launched cfg st sb) (held : Multiset Pin) :
    Launched cfg st { sb with
      vms := sb.vms.modifyHead fun vm => { vm with monitored := true }, held := held } := by
  refine ⟨⟨hl.locked, hl.ending⟩, ?_⟩
  have hvms := hl.vms
  cases hv : sb.vms with
  | nil => exact fun _ hvm => absurd hvm (by simp)
  | cons v vms =>
    rw [hv, List.forall_mem_cons] at hvms
    simp only [List.modifyHead_cons, List.forall_mem_cons]
    exact hvms

theorem forall_of_some {P : Call → Prop} {d : Call} (h : P d) (d' : Call) (hd : some d = some d') :
    P d' := by
  cases hd
  exact h

/-- A move keeps what holds of its sandbox, and of its own call against it. -/
theorem Move.self (h : Move cfg e g sb c g' sb' c') (hok : OrderlyMove e sb) (hs : SandboxInv sb)
    (hc : ∀ d, c = some d → CallInv cfg sb d) :
    SandboxInv sb' ∧ ∀ d, c' = some d → CallInv cfg sb' d := by
  cases h with
  | lease req marker h hreq => exact ⟨hs, forall_of_some rfl⟩
  | miss | mismatch | refuse => exact ⟨hs, forall_of_none⟩
  | checkFail =>
    have hsvc : _ = false := hc _ rfl
    exact ⟨hs, forall_of_some fun hs => by simp [hsvc] at hs⟩
  | find | findService | findDelete => exact ⟨hs, forall_of_some trivial⟩
  | lockStart hfree | lockService hfree =>
    have hrest := hs.rest hfree hok.1
    exact ⟨.of_locked rfl hs.covered hs.older,
      forall_of_some ⟨⟨rfl, hok.1⟩, hok.2, ⟨hrest.stopped, hrest.record⟩⟩⟩
  | serviceMiss | serviceMismatch =>
    obtain ⟨hin, -, hrest⟩ := hc _ rfl
    exact ⟨hs.unlock hin.ending hrest true, forall_of_none⟩
  | serviceLease =>
    have hentered : CallInv cfg sb .entered := hc _ rfl
    exact ⟨hs, forall_of_some hentered⟩
  | @preFail _ _ st =>
    obtain ⟨hin, -, hrest⟩ := hc _ rfl
    exact Settled.leave ⟨hs, hin, hrest⟩ st (.inl rfl)
  | record =>
    obtain ⟨hin, hover, -⟩ := hc _ rfl
    exact ⟨.of_locked hin.locked hs.covered hs.older,
      forall_of_some ⟨⟨hin.locked, hin.ending⟩, hover, _, _, rfl⟩⟩
  | @restoreFail _ _ st left hleft =>
    obtain ⟨hin, hover, -⟩ := hc _ rfl
    exact (restoreFail_settled hleft hin hover).leave st (.inl rfl)
  | @restore _ _ st =>
    obtain ⟨hin, hover, hrec⟩ := hc _ rfl
    have hl := restore_launched cfg st hin hover
    have hpin := Multiset.mem_cons_self st.pin sb.held
    exact ⟨.of_locked hl.locked (hl.covered (covered_pin hpin)) hover,
      forall_of_some ⟨hl, hpin, hrec⟩⟩
  | @restoreKill _ _ st ok =>
    -- the guard says that the kill succeeded
    have hok' : ok = true := hok
    subst hok'
    obtain ⟨hl, -, -⟩ := hc _ rfl
    exact (hl.settled hs _).leave st (.inl rfl)
  | commit =>
    obtain ⟨hl, hpin, hrec⟩ := hc _ rfl
    exact ⟨.of_locked hl.locked hs.covered hs.older,
      forall_of_some ⟨⟨⟨hl.locked, hl.ending⟩, hl.vms⟩, hpin, hrec, rfl⟩⟩
  | @pin _ _ st =>
    obtain ⟨hl, hpin, hrec, hst⟩ := hc _ rfl
    have hl' := pin_launched hl (extraPins sb.record + sb.held)
    have hpin' : st.pin ∈ extraPins sb.record + sb.held := Multiset.mem_add.mpr (.inr hpin)
    refine ⟨.of_locked hl.locked (hl'.covered (covered_pin hpin')) ?_,
      forall_of_some ⟨hl', ?_, hrec, hst⟩⟩
    · rw [tail_modifyHead]
      exact hs.older
    · rw [← Multiset.singleton_add, Multiset.add_comm]
      exact Multiset.add_le_add_iff_left.mpr (Multiset.singleton_le.mpr hpin)
  | @unpin _ _ st removed =>
    -- the extra reference goes first; the pin of the lease still covers the VM
    obtain ⟨hl, hpins, hrec, hst⟩ := hc _ rfl
    have hl' : Launched cfg st { sb with record := {}, held := sb.held - extraPins sb.record } :=
      ⟨⟨hl.locked, hl.ending⟩, hl.vms⟩
    have hpin := pin_mem_sub hpins
    exact ⟨.of_locked hl.locked (hl'.covered (covered_pin hpin)) hs.older,
      forall_of_some ⟨hl', hpin, rfl, hst⟩⟩
  | @rollbackStop _ _ st ok =>
    have hok' : ok = true := hok
    subst hok'
    obtain ⟨hl, -, hrec, hst⟩ := hc _ rfl
    have hkill : { (sb.stop true).getD sb with held := sb.held - {st.pin} } =
        { sb.kill with record := {}, held := sb.held - {st.pin} } := by
      rw [← hrec]
      simp [Sandbox.stop, Sandbox.kill, hst]
    rw [hkill]
    exact (hl.settled hs _).leave st (.inl rfl)
  | @finish _ _ st =>
    obtain ⟨hl, hpins, hrec, hst⟩ := hc _ rfl
    exact (finish_settled hl hs hpins hrec hst).leave st (.inr rfl)
  | @complete _ _ st | @leaseFail _ _ st =>
    refine ⟨?_, forall_of_none⟩
    cases hsvc : st.service with
    | false => exact hs
    | true =>
      obtain ⟨hin, hrest⟩ := hc _ rfl hsvc
      exact hs.unlock hin.ending hrest true
  | lockDelete hfree =>
    have hrest := hs.rest hfree hok
    exact ⟨.of_locked rfl hs.covered hs.older,
      forall_of_some ⟨rfl, rfl, ⟨hrest.stopped, hrest.record⟩, pinsOf_disposalOf _ _⟩⟩
  | deleteStopFail hfail =>
    obtain ⟨-, -, hrest, -⟩ := hc _ rfl
    exact ⟨⟨hs.covered, hs.older, fun _ _ => ⟨hrest.stopped, hrest.record⟩, nofun⟩, forall_of_none⟩
  | @deleteStop _ _ sb₁ destroy d hstop =>
    obtain ⟨hlock, hend, hrest, hd⟩ := hc _ rfl
    have hf := frame_stop hstop
    have hdark := hs.dark_of_stop hrest hstop
    have hend₁ := hf.ending.trans hend
    have hinv₁ := hs.frame hf fun hfree => by simp [hlock] at hfree
    refine ⟨hinv₁.unlock_ended hend₁ hdark _, forall_of_some ⟨?_, ?_, ?_, ?_, ?_⟩⟩
    · rw [unlock_locked, hf.locked, hlock, Bool.true_and]
    · rw [unlock_ending, hend₁]
    · rw [unlock_vms]
      exact hdark
    · rw [unlock_record, unlock_held, hf.record, hf.held]
      exact hrest.record
    · rw [unlock_record, hf.record]
      exact hd
  | @deleteFail _ _ destroy d =>
    obtain ⟨hlock, hend, hdark, hrec, hd⟩ := hc _ rfl
    have hrest : Rest { sb with ending := false } := .of_dark hdark hrec
    have hinv : SandboxInv { sb with ending := false } := by
      refine ⟨hs.covered, hs.older, fun _ _ => hrest, ?_⟩
      intro _ hend'
      cases hend'
    exact ⟨hinv.unlock rfl hrest _, forall_of_none⟩
  | @deleteGive _ _ destroy d removed cleaned =>
    obtain ⟨hlock, hend, hdark, -, -⟩ := hc _ rfl
    exact ⟨.of_ended hend hdark (hdark.covered _) hs.older,
      forall_of_some ⟨hlock, hend, hdark⟩⟩
  | @remove _ _ destroy =>
    obtain ⟨hlock, hend, hdark⟩ := hc _ rfl
    have hinv : SandboxInv { sb with registered := false } :=
      .of_ended hend hdark hs.covered hs.older
    exact ⟨hinv.unlock_ended hend hdark _, forall_of_none⟩
  | stop ok hfree hstop =>
    have hf := frame_stop hstop
    refine ⟨hs.frame hf fun _ hst => .inl ?_, forall_of_none⟩
    rcases stop_cases hstop with ⟨hst', -⟩ | rfl
    · exact hst'
    · exact hst
  | exit i hi => exact ⟨hs.frame (frame_exit hi) fun _ hst => .inl hst, forall_of_none⟩
  | monitor i hfree hi hm hdead =>
    have hdark := hs.dark_of_monitored hi hm hdead
    exact ⟨hs.frame (frame_monitor hfree hi) fun _ _ => .inr hdark, forall_of_none⟩

/-- A move leaves the other calls on the sandbox in step with it. -/
theorem Move.other (h : Move cfg e g sb c g' sb' c') (hok : OrderlyMove e sb)
    (hc : ∀ d, c = some d → CallInv cfg sb d ∧ Apart d m ∧ Apart m d) (hm : CallInv cfg sb m) :
    CallInv cfg sb' m ∧ ∀ d, c' = some d → Apart d m ∧ Apart m d := by
  cases hb : m.busy with
  | false =>
    refine ⟨?_, fun d _ => ⟨by simp [Apart, hb], by simp [Apart, hb]⟩⟩
    cases m with
    | leased | found | serviceFound | deleteFound => exact hm
    | failing | completing => exact fun hs => absurd (hs.symm.trans hb) (by simp)
    | entered | starting | recorded | restored | committed | pinned | unpinned | deleting | emptied
    | gave => simp [Call.busy] at hb
  | true =>
    -- the call that moves is not busy, and `m` keeps it from taking the lock
    have hidle : ∀ d, c = some d → d.busy = false := by
      intro d hd
      have hap := (hc d hd).2.1
      simpa [Apart, hb] using hap
    rcases h.frame hidle hok fun d hd => (hc d hd).1 with ⟨hf, hidle'⟩ | ⟨hfree, hend⟩
    · refine ⟨hm.frame hf, fun d hd => ?_⟩
      simp [Apart, hidle' d hd]
    · rcases hm.taken hb with hl | he
      · rw [hfree] at hl
        cases hl
      · rw [hend] at he
        cases he

end Kuasar.TemplatePins

import Kuasar.Tla.Tasks

/-!
# Hypervisor.QmpEvents — waiting for the event that a device is deleted

QEMU answers `device_del` at once and sends an event when the device is gone. `delete_device`
registers a watcher with a channel, sends the command, and after the reply waits for the channel.
The client has one task that takes events off the stream and goes through the watchers with each:
those that match are sent the event and are off the list, the others are put back.

The calls and the task share the list under a lock. A step is what happens under the lock, or
between two things another task can see: a call is issued, registers its watcher, gets its reply,
returns, or is dropped by its caller; the task takes an event off the stream, and goes through the
watchers with it. The event counts as received when the latter happens, so that one which is off
the stream already can still reach a call that is issued then.

A failed reply leaves the watcher on the list. The call does not look at what it got from the
channel: it would return, too, if the watcher had been dropped. `delete_device_events` says that
this never happens, that every call in the middle of `delete_device` is sent the first event for
its device after it registered, and that it returns on nothing else.
-/

namespace Kuasar.QmpEvents

open Tla

/-! ## Calls, watchers and the task -/

inductive Event where
  | deviceDeleted (device : Option String)
  | other (name : String)
  deriving DecidableEq, Repr

/-- The filter of `delete_device`. -/
def deletes (deviceId : String) : Event → Bool
  | .deviceDeleted (some id) => id = deviceId
  | _ => false

/-- Where a call of `delete_device` is. -/
inductive Phase where
  | issued
  | sent
  | waiting
  | succeeded
  | failed
  | abandoned
  deriving DecidableEq, Repr

/-- A call; `rx` is what its channel holds. Kept for the proofs: how many events had been received
when it was issued and when it registered. -/
structure Call where
  deviceId : String
  phase : Phase
  rx : Option Event
  issuedAt : ℕ
  registeredAt : ℕ
  deriving DecidableEq, Repr

/-- A watcher: the device its filter is for, and the call at the other end of its channel. -/
structure Watcher where
  deviceId : String
  sender : ℕ
  deriving DecidableEq, Repr

/-- A client. `hand` is the event that the task has taken off the stream, and `running` whether
the stream goes on. Kept for the proofs: the events that were received. -/
structure Client where
  calls : List Call
  watchers : List Watcher
  hand : Option Event
  running : Bool
  received : List Event
  deriving DecidableEq, Repr

def Call.Listening (c : Call) : Prop := c.phase = .sent ∨ c.phase = .waiting

instance (c : Call) : Decidable c.Listening := inferInstanceAs (Decidable (_ ∨ _))

/-- The event arrives at a call. A call that has returned has no receiving end any more, and the
error is logged. -/
def Call.deliver (e : Event) (c : Call) : Call :=
  if c.Listening then { c with rx := some e } else c

def send (e : Event) (sender : ℕ) (calls : List Call) : List Call :=
  calls.modify sender (Call.deliver e)

/-- The inner loop of the task: the watchers in the order they are popped, the calls, and the
watchers that are retained. -/
def sweep (e : Event) : List Watcher → List Call → List Watcher → List Call × List Watcher
  | [], calls, retained => (calls, retained)
  | w :: ws, calls, retained =>
    if deletes w.deviceId e then sweep e ws (send e w.sender calls) retained
    else sweep e ws calls (retained ++ [w])

/-! ## Steps -/

/-- What happens to a client. -/
inductive Label where
  | issue (deviceId : String)
  | register (i : ℕ)
  | reply (i : ℕ) (ok : Bool)
  | finish (i : ℕ)
  | abandon (i : ℕ)
  | take (e : Event)
  | handle
  | endStream
  deriving DecidableEq, Repr

def moveCall (i : ℕ) (ok : Call → Bool) (f : Call → Call) (s : Client) : Option Client :=
  match s.calls[i]? with
  | none => none
  | some c => if ok c then some { s with calls := s.calls.set i (f c) } else none

/-- The channel of a call has an event, or the watcher with its other end is gone. -/
def resolved (watchers : List Watcher) (i : ℕ) (c : Call) : Bool :=
  c.rx.isSome || watchers.all fun w => w.sender ≠ i

/-- The task goes through the watchers with an event. -/
def handle (e : Event) (s : Client) : Client where
  calls := (sweep e s.watchers.reverse s.calls []).1
  watchers := (sweep e s.watchers.reverse s.calls []).2
  hand := none
  running := s.running
  received := s.received ++ [e]

def step (l : Label) (s : Client) : Option Client :=
  match l with
  | .issue deviceId =>
    some { s with calls := s.calls ++ [⟨deviceId, .issued, none, s.received.length, 0⟩] }
  | .register i =>
    match s.calls[i]? with
    | none => none
    | some c =>
      if c.phase = .issued then
        some { s with
          calls := s.calls.set i { c with phase := .sent, registeredAt := s.received.length }
          watchers := s.watchers ++ [⟨c.deviceId, i⟩] }
      else none
  | .reply i ok =>
    moveCall i (fun c => c.phase = .sent)
      (fun c => { c with phase := if ok then .waiting else .failed }) s
  | .finish i =>
    moveCall i (fun c => c.phase = .waiting && resolved s.watchers i c)
      (fun c => { c with phase := .succeeded }) s
  | .abandon i =>
    moveCall i (fun c => c.phase = .issued || c.Listening)
      (fun c => { c with phase := .abandoned }) s
  | .take e => if s.running && s.hand.isNone then some { s with hand := some e } else none
  | .handle =>
    match s.hand with
    | none => none
    | some e => some (handle e s)
  | .endStream => if s.running && s.hand.isNone then some { s with running := false } else none

/-- A new client. -/
def Init (s : Client) : Prop := s = ⟨[], [], none, true, []⟩

/-! ## Going through the watchers -/

section

variable {e : Event} {ws retained : List Watcher} {calls : List Call}

theorem deliver_deliver (c : Call) : (c.deliver e).deliver e = c.deliver e := by
  unfold Call.deliver
  split
  · rename_i h
    rw [if_pos (show Call.Listening { c with rx := some e } from h)]
  · rfl

/-- The watchers that do not match are retained. -/
theorem sweep_snd : (sweep e ws calls retained).2 =
    retained ++ ws.filter fun w => !deletes w.deviceId e := by
  induction ws generalizing calls retained with
  | nil => simp [sweep]
  | cons w ws ih =>
    rw [sweep, List.filter_cons]
    rcases hw : deletes w.deviceId e with _ | _
    · simp [ih]
    · simp [ih]

/-- Every call with a watcher that matches is sent the event, and no other. -/
theorem getElem?_sweep_fst (i : ℕ) : (sweep e ws calls retained).1[i]? = calls[i]?.map fun c =>
    if ∃ w ∈ ws, w.sender = i ∧ deletes w.deviceId e = true then c.deliver e else c := by
  induction ws generalizing calls retained with
  | nil => simp [sweep]
  | cons w ws ih =>
    rw [sweep]
    rcases hw : deletes w.deviceId e with _ | _
    · simp only [Bool.false_eq_true, if_false, ih, List.exists_mem_cons_iff, hw, and_false,
        false_or]
    · simp only [if_true, ih, List.exists_mem_cons_iff, hw, and_true, send, List.getElem?_modify]
      cases hc : calls[i]? with
      | none => simp
      | some c =>
        by_cases hi : w.sender = i
        · by_cases hex : ∃ w ∈ ws, w.sender = i ∧ deletes w.deviceId e = true
          · simp [hi, hex, deliver_deliver]
          · simp [hi, hex]
        · simp [hi]

end

/-! ## What a call was told -/

/-- A call in the middle of `delete_device`: its channel holds the first event for its device that
was received after it registered, and its watcher is on the list as long as there is none. -/
structure Told (watchers : List Watcher) (received : List Event) (i : ℕ) (c : Call) : Prop where
  issued : c.issuedAt ≤ c.registeredAt
  registered : c.registeredAt ≤ received.length
  rx : c.rx = (received.drop c.registeredAt).find? (deletes c.deviceId)
  watched : ⟨c.deviceId, i⟩ ∈ watchers ↔ c.rx = none

def CallInv (watchers : List Watcher) (received : List Event) (i : ℕ) (c : Call) : Prop :=
  match c.phase with
  | .issued => c.rx = none ∧ c.issuedAt ≤ received.length
  | .sent | .waiting => Told watchers received i c
  | .succeeded => ∃ e ∈ received.drop c.issuedAt, deletes c.deviceId e = true
  | .failed | .abandoned => True

/-- The calls, and that a watcher is that of a call which has registered it. -/
structure Inv (s : Client) : Prop where
  calls : ∀ (i : ℕ) c, s.calls[i]? = some c → CallInv s.watchers s.received i c
  watchers : ∀ w ∈ s.watchers, ∃ c, s.calls[w.sender]? = some c ∧ c.deviceId = w.deviceId ∧
    c.phase ≠ .issued

section

variable {watchers : List Watcher} {received : List Event} {i : ℕ} {c : Call} {e : Event}
variable {s s' : Client}

theorem CallInv.told (h : CallInv watchers received i c) (hlisten : c.Listening) :
    Told watchers received i c := by
  unfold CallInv at h
  rcases hlisten with hphase | hphase <;> rw [hphase] at h <;> exact h

theorem Told.callInv (h : Told watchers received i c) (hlisten : c.Listening) :
    CallInv watchers received i c := by
  unfold CallInv
  rcases hlisten with hphase | hphase <;> rw [hphase] <;> exact h

/-- A call is affected by the list only through its own watcher. -/
theorem CallInv.congr {watchers' : List Watcher} (h : CallInv watchers received i c)
    (hwatch : ∀ id, (⟨id, i⟩ : Watcher) ∈ watchers' ↔ ⟨id, i⟩ ∈ watchers) :
    CallInv watchers' received i c := by
  unfold CallInv at h ⊢
  cases hphase : c.phase <;> rw [hphase] at h
  case sent => exact ⟨h.issued, h.registered, h.rx, (hwatch _).trans h.watched⟩
  case waiting => exact ⟨h.issued, h.registered, h.rx, (hwatch _).trans h.watched⟩
  all_goals exact h

theorem Told.resolved_iff (h : Told watchers received i c) :
    resolved watchers i c = true ↔ c.rx.isSome := by
  unfold resolved
  rw [Bool.or_eq_true, or_iff_left_iff_imp]
  intro hgone
  by_contra hnone
  have hmem := h.watched.mpr (Option.not_isSome_iff_eq_none.mp hnone)
  have hne := List.all_eq_true.mp hgone _ hmem
  simp at hne

theorem Told.isSome_rx_iff (h : Told watchers received i c) :
    c.rx.isSome ↔ ∃ e ∈ received.drop c.registeredAt, deletes c.deviceId e = true := by
  rw [h.rx, List.find?_isSome]

/-- An event on the list of those received after a call registered was received after it was
issued. -/
theorem Told.received_after_issued (h : Told watchers received i c) (hrx : c.rx.isSome) :
    ∃ e ∈ received.drop c.issuedAt, deletes c.deviceId e = true := by
  obtain ⟨e, hmem, hdel⟩ := h.isSome_rx_iff.mp hrx
  exact ⟨e, (List.drop_sublist_drop_left received h.issued).subset hmem, hdel⟩

/-- The calls change in one place, and the list does not change. -/
theorem Inv.setCall {c' : Call} (h : Inv s) (hc : s.calls[i]? = some c)
    (hnew : CallInv s.watchers s.received i c') (hid : c'.deviceId = c.deviceId)
    (hphase : c'.phase ≠ .issued) : Inv { s with calls := s.calls.set i c' } where
  calls := by
    intro j d hd
    rcases getElem?_set_cases hd with ⟨rfl, rfl⟩ | ⟨-, hd⟩
    · exact hnew
    · exact h.calls j d hd
  watchers := by
    intro w hw
    obtain ⟨d, hd, hdev, hreg⟩ := h.watchers w hw
    by_cases hi : w.sender = i
    · rw [hi, hc] at hd
      cases hd
      refine ⟨c', ?_, hid.trans hdev, hphase⟩
      rw [hi, List.getElem?_set_self (List.getElem?_eq_some_iff.mp hc).1]
    · refine ⟨d, ?_, hdev, hreg⟩
      rw [List.getElem?_set_ne (Ne.symm hi)]
      exact hd

theorem moveCall_eq_some {ok : Call → Bool} {f : Call → Call}
    (h : moveCall i ok f s = some s') :
    ∃ c, s.calls[i]? = some c ∧ ok c = true ∧ s' = { s with calls := s.calls.set i (f c) } := by
  unfold moveCall at h
  cases hc : s.calls[i]? with
  | none =>
    rw [hc] at h
    cases h
  | some c =>
    simp only [hc] at h
    split at h
    · rename_i hok
      cases h
      exact ⟨c, rfl, hok, rfl⟩
    · cases h

/-! ## Every step keeps it -/

theorem Inv.issue (h : Inv s) (deviceId : String) :
    Inv { s with calls := s.calls ++ [⟨deviceId, .issued, none, s.received.length, 0⟩] } where
  calls := by
    intro j d hd
    rcases Nat.lt_or_ge j s.calls.length with hlt | hge
    · rw [List.getElem?_append_left hlt] at hd
      exact h.calls j d hd
    · rw [List.getElem?_append_right hge] at hd
      rw [List.mem_singleton.mp (List.mem_of_getElem? hd)]
      exact ⟨rfl, le_rfl⟩
  watchers := by
    intro w hw
    obtain ⟨d, hd, hdev, hreg⟩ := h.watchers w hw
    exact ⟨d, List.getElem?_append_left (List.getElem?_eq_some_iff.mp hd).1 ▸ hd, hdev, hreg⟩

theorem Inv.register (h : Inv s) (hc : s.calls[i]? = some c) (hphase : c.phase = .issued) :
    Inv { s with
      calls := s.calls.set i { c with phase := .sent, registeredAt := s.received.length }
      watchers := s.watchers ++ [⟨c.deviceId, i⟩] } where
  calls := by
    intro j d hd
    rcases getElem?_set_cases hd with ⟨rfl, rfl⟩ | ⟨hji, hd⟩
    · have hnew := h.calls j c hc
      rw [CallInv, hphase] at hnew
      refine Told.callInv ⟨hnew.2, le_rfl, ?_, ?_⟩ (.inl rfl)
      · simp [hnew.1]
      · simp [hnew.1]
    · refine (h.calls j d hd).congr ?_
      intro id
      simp [hji]
  watchers := by
    intro w hw
    rcases List.mem_append.mp hw with hw | hw
    · obtain ⟨d, hd, hdev, hreg⟩ := h.watchers w hw
      refine ⟨d, ?_, hdev, hreg⟩
      -- the call of this watcher has registered it before
      have hne : w.sender ≠ i := by
        intro hi
        rw [hi, hc] at hd
        cases hd
        exact hreg hphase
      rw [List.getElem?_set_ne (Ne.symm hne)]
      exact hd
    · rw [List.mem_singleton.mp hw]
      exact ⟨_, List.getElem?_set_self (List.getElem?_eq_some_iff.mp hc).1, rfl, Phase.noConfusion⟩

/-- The event is for the call's device exactly if a watcher of the call matches it. -/
theorem Inv.matched_iff (h : Inv s) (hc : s.calls[i]? = some c)
    (htold : Told s.watchers s.received i c) :
    (∃ w ∈ s.watchers.reverse, w.sender = i ∧ deletes w.deviceId e = true) ↔
      c.rx = none ∧ deletes c.deviceId e = true := by
  constructor
  · rintro ⟨w, hw, rfl, hdel⟩
    rw [List.mem_reverse] at hw
    obtain ⟨d, hd, hdev, -⟩ := h.watchers w hw
    rw [hc] at hd
    cases hd
    rw [← hdev] at hdel
    refine ⟨htold.watched.mp ?_, hdel⟩
    rw [hdev]
    exact hw
  · rintro ⟨hrx, hdel⟩
    exact ⟨⟨c.deviceId, i⟩, List.mem_reverse.mpr (htold.watched.mpr hrx), rfl, hdel⟩

/-- A call in the middle of `delete_device` gets an event for its device if it has none. -/
theorem Inv.getElem?_handle (h : Inv s) (hc : s.calls[i]? = some c) (hlisten : c.Listening) :
    (handle e s).calls[i]? = some (if c.rx = none ∧ deletes c.deviceId e = true then
      { c with rx := some e } else c) := by
  have hmatched := @Inv.matched_iff i c e s h hc ((h.calls i c hc).told hlisten)
  rw [handle, getElem?_sweep_fst, hc, Option.map_some]
  simp only [hmatched]
  split
  · rw [Call.deliver, if_pos hlisten]
  · rfl

theorem getElem?_handle_of_not_listening (hc : s.calls[i]? = some c) (hnot : ¬c.Listening) :
    (handle e s).calls[i]? = some c := by
  rw [handle, getElem?_sweep_fst, hc, Option.map_some, Call.deliver, if_neg hnot, ite_self]

theorem mem_watchers_handle {w : Watcher} :
    w ∈ (handle e s).watchers ↔ w ∈ s.watchers ∧ deletes w.deviceId e = false := by
  rw [handle, sweep_snd, List.nil_append, List.mem_filter, List.mem_reverse, Bool.not_eq_true']

/-- What the call was told is right after the event, too. -/
theorem Told.handle (h : Told s.watchers s.received i c) :
    Told (handle e s).watchers (s.received ++ [e]) i
      (if c.rx = none ∧ deletes c.deviceId e = true then { c with rx := some e } else c) := by
  have hreg : c.registeredAt ≤ (s.received ++ [e]).length := by
    rw [List.length_append]
    exact le_trans h.registered (Nat.le_add_right _ _)
  have hfind : ((s.received ++ [e]).drop c.registeredAt).find? (deletes c.deviceId) =
      c.rx.or (if deletes c.deviceId e then some e else none) := by
    rw [List.drop_append_of_le_length h.registered, List.find?_append, ← h.rx, List.find?_singleton]
  split
  · rename_i hmatch
    obtain ⟨hrx, hdel⟩ := hmatch
    refine ⟨h.issued, hreg, ?_, ?_⟩
    · rw [hfind, hrx, if_pos hdel]
      rfl
    · simp [mem_watchers_handle, hdel]
  · rename_i hmatch
    refine ⟨h.issued, hreg, ?_, ?_⟩
    · rw [hfind]
      cases hrx : c.rx with
      | none =>
        have hdel : ¬deletes c.deviceId e = true := fun hdel => hmatch ⟨hrx, hdel⟩
        rw [if_neg hdel]
        rfl
      | some e' => rfl
    · rw [mem_watchers_handle, h.watched, and_iff_left_iff_imp]
      intro hrx
      rw [← Bool.not_eq_true]
      exact fun hdel => hmatch ⟨hrx, hdel⟩

/-- A call that is not in the middle of `delete_device` is not concerned. -/
theorem CallInv.of_not_listening {watchers' : List Watcher} (h : CallInv watchers received i c)
    (hnot : ¬c.Listening) : CallInv watchers' (received ++ [e]) i c := by
  unfold CallInv at h ⊢
  cases hphase : c.phase <;> rw [hphase] at h
  case issued =>
    rw [List.length_append]
    exact ⟨h.1, le_trans h.2 (Nat.le_add_right _ _)⟩
  case sent => exact absurd (.inl hphase) hnot
  case waiting => exact absurd (.inr hphase) hnot
  case succeeded =>
    obtain ⟨e', hmem, hdel⟩ := h
    refine ⟨e', ?_, hdel⟩
    rw [List.drop_append]
    exact List.mem_append_left _ hmem
  case failed => trivial
  case abandoned => trivial

theorem Inv.handle (h : Inv s) (e : Event) : Inv (handle e s) where
  calls := by
    intro j d hd
    have hlt : j < s.calls.length := by
      have hsome := congrArg Option.isSome hd
      rw [QmpEvents.handle, getElem?_sweep_fst] at hsome
      simpa using hsome
    obtain ⟨c, hc⟩ : ∃ c, s.calls[j]? = some c := ⟨_, List.getElem?_eq_getElem hlt⟩
    by_cases hlisten : c.Listening
    · rw [h.getElem?_handle hc hlisten] at hd
      cases hd
      refine ((h.calls j c hc).told hlisten).handle.callInv ?_
      split <;> exact hlisten
    · rw [getElem?_handle_of_not_listening hc hlisten] at hd
      cases hd
      exact (h.calls j d hc).of_not_listening hlisten
  watchers := by
    intro w hw
    obtain ⟨hw, hdel⟩ := mem_watchers_handle.mp hw
    obtain ⟨c, hc, hdev, hreg⟩ := h.watchers w hw
    by_cases hlisten : c.Listening
    · refine ⟨_, h.getElem?_handle hc hlisten, ?_, ?_⟩
      · split <;> exact hdev
      · split <;> exact hreg
    · exact ⟨c, getElem?_handle_of_not_listening hc hlisten, hdev, hreg⟩

theorem Inv.step {l : Label} (hstep : step l s = some s') (h : Inv s) : Inv s' := by
  cases l with
  | issue deviceId =>
    cases hstep
    exact h.issue deviceId
  | register i =>
    simp only [QmpEvents.step] at hstep
    cases hc : s.calls[i]? with
    | none =>
      rw [hc] at hstep
      cases hstep
    | some c =>
      simp only [hc] at hstep
      split at hstep
      · rename_i hphase
        cases hstep
        exact h.register hc hphase
      · cases hstep
  | reply i ok =>
    obtain ⟨c, hc, hphase, rfl⟩ := moveCall_eq_some hstep
    have hphase : c.phase = .sent := of_decide_eq_true hphase
    have htold := (h.calls i c hc).told (.inl hphase)
    cases ok with
    | true =>
      have hnew : Told s.watchers s.received i { c with phase := .waiting } :=
        ⟨htold.issued, htold.registered, htold.rx, htold.watched⟩
      exact h.setCall hc (hnew.callInv (.inr rfl)) rfl Phase.noConfusion
    | false => exact h.setCall hc trivial rfl Phase.noConfusion
  | finish i =>
    obtain ⟨c, hc, hok, rfl⟩ := moveCall_eq_some hstep
    obtain ⟨hphase, hres⟩ := (Bool.and_eq_true _ _).mp hok
    have htold := (h.calls i c hc).told (.inr (of_decide_eq_true hphase))
    have hrx := htold.resolved_iff.mp hres
    exact h.setCall hc (htold.received_after_issued hrx) rfl Phase.noConfusion
  | abandon i =>
    obtain ⟨c, hc, -, rfl⟩ := moveCall_eq_some hstep
    exact h.setCall hc trivial rfl Phase.noConfusion
  | take e | endStream =>
    simp only [QmpEvents.step] at hstep
    split at hstep
    · cases hstep
      exact ⟨h.calls, h.watchers⟩
    · cases hstep
  | handle =>
    simp only [QmpEvents.step] at hstep
    split at hstep
    · cases hstep
    · cases hstep
      exact h.handle _

theorem Inv.of_reachable (h : Reachable Init (AnyStep (StepOf QmpEvents.step)) s) :
    Inv s := by
  apply h.invariant
  · rintro s rfl
    exact ⟨by simp, by simp⟩
  · rintro s s' ⟨l, hl⟩ hinv
    exact hinv.step hl

/-- A call can return exactly if it is waiting and its channel is resolved. -/
theorem step_finish_isSome (hc : s.calls[i]? = some c) (hphase : c.phase = .waiting) :
    (step (.finish i) s).isSome ↔ resolved s.watchers i c = true := by
  simp only [step, moveCall, hc, hphase, decide_true, Bool.true_and]
  split <;> simp_all

theorem deletes_iff {id : String} {e : Event} :
    deletes id e = true ↔ e = .deviceDeleted (some id) := by
  cases e with
  | deviceDeleted device => cases device <;> simp [deletes]
  | other name => simp [deletes]

theorem exists_deletes_iff {id : String} {es : List Event} :
    (∃ e ∈ es, deletes id e = true) ↔ Event.deviceDeleted (some id) ∈ es := by
  simp only [deletes_iff, exists_eq_right]

theorem find?_deletes (id : String) (es : List Event) : es.find? (deletes id) =
    if .deviceDeleted (some id) ∈ es then some (.deviceDeleted (some id)) else none := by
  split
  · rename_i hmem
    cases hfind : es.find? (deletes id) with
    | none => exact absurd (deletes_iff.mpr rfl) (List.find?_eq_none.mp hfind _ hmem)
    | some e => rw [deletes_iff.mp (List.find?_some hfind)]
  · rename_i hmem
    rw [List.find?_eq_none]
    intro e he hdel
    exact hmem (deletes_iff.mp hdel ▸ he)

/-- In every order of calls, replies and events:

* a call that has succeeded was preceded by the event for its device, received after it was issued;
* a call that waits holds the event for its device if that was received since it registered, and
  can return exactly if it was;
* when an event is received, every call of its device that had none yet has it, also one whose
  reply is still to come, and calls of other devices are as before. -/
theorem delete_device_events (s : Client)
    (h : Reachable Init (AnyStep (StepOf step)) s) (i : ℕ) (c : Call)
    (hc : s.calls[i]? = some c) :
    (c.phase = .succeeded → .deviceDeleted (some c.deviceId) ∈ s.received.drop c.issuedAt) ∧
      (c.Listening → c.issuedAt ≤ c.registeredAt ∧
        c.rx = if .deviceDeleted (some c.deviceId) ∈ s.received.drop c.registeredAt then
          some (.deviceDeleted (some c.deviceId)) else none) ∧
      (c.phase = .waiting → ((step (.finish i) s).isSome ↔
        .deviceDeleted (some c.deviceId) ∈ s.received.drop c.registeredAt)) ∧
      ∀ e s', s.hand = some e → step .handle s = some s' →
        s'.received = s.received ++ [e] ∧
          (c.Listening → c.rx = none → e = .deviceDeleted (some c.deviceId) →
            s'.calls[i]? = some { c with rx := some e }) ∧
          (e ≠ .deviceDeleted (some c.deviceId) → s'.calls[i]? = some c) := by
  have hinv := Inv.of_reachable h
  have hcall := hinv.calls i c hc
  refine ⟨?_, ?_, ?_, ?_⟩
  · intro hphase
    rw [CallInv, hphase] at hcall
    exact exists_deletes_iff.mp hcall
  · intro hlisten
    rw [← find?_deletes]
    exact ⟨(hcall.told hlisten).issued, (hcall.told hlisten).rx⟩
  · intro hphase
    have htold := hcall.told (.inr hphase)
    rw [step_finish_isSome hc hphase, htold.resolved_iff, htold.isSome_rx_iff, exists_deletes_iff]
  · intro e s' hhand hstep
    simp only [step, hhand] at hstep
    cases hstep
    refine ⟨rfl, ?_, ?_⟩
    · intro hlisten hrx hdel
      rw [hinv.getElem?_handle hc hlisten, if_pos ⟨hrx, deletes_iff.mpr hdel⟩]
    · intro hdel
      by_cases hlisten : c.Listening
      · rw [hinv.getElem?_handle hc hlisten, if_neg]
        rintro ⟨-, hdel'⟩
        exact hdel (deletes_iff.mp hdel')
      · exact getElem?_handle_of_not_listening hc hlisten

end

/-- Three calls, two of them for one device. The event comes before the replies. -/
def earlyEvent : List Label :=
  [.issue "virtio-blk1", .issue "virtio-blk2", .issue "virtio-blk1", .register 0, .register 1,
    .register 2, .take (.deviceDeleted (some "virtio-blk1")), .handle, .reply 0 true,
    .reply 1 true, .reply 2 true, .finish 0]

def earlyEventClient : Client :=
  (Tla.replay step earlyEvent ⟨[], [], none, true, []⟩).getD ⟨[], [], none, true, []⟩

theorem delete_device_events_early :
    earlyEventClient.calls.map Call.phase = [.succeeded, .waiting, .waiting] ∧
      (step (.finish 1) earlyEventClient).isSome = false ∧
      (step (.finish 2) earlyEventClient).isSome = true := by
  have hr : Reachable Init (AnyStep (StepOf step)) earlyEventClient :=
    Reachable.replay (show Init ⟨[], [], none, true, []⟩ from rfl)
      (show replay step earlyEvent _ = some earlyEventClient by decide)
  refine ⟨by decide, ?_, ?_⟩
  · rw [← Bool.not_eq_true, (delete_device_events _ hr 1 _ rfl).2.2.1 rfl]
    decide
  · exact ((delete_device_events _ hr 2 _ rfl).2.2.1 rfl).mpr (by decide)

end Kuasar.QmpEvents

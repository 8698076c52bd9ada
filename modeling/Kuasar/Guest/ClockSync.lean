import Mathlib.Algebra.Order.Group.Abs
import Mathlib.Algebra.Order.Ring.Int
import Kuasar.Data.MachineInt

/-!
# Guest.ClockSync — setting the guest's clock by the host's

Every minute the host asks the guest for the time. The guest notes when the request arrives and
when it answers; from these two times and its own two the host computes by how much the guest is
behind, and if that is more than the tolerance it sends the difference, which the guest adds to
its clock.

The host's sums are checked. The guest reads the difference, which may be negative, as an
unsigned number of nanoseconds and adds it with the wrapping arithmetic of a release build;
what wraps on the way wraps back in the sum (`addDelta_eq`).

The tolerance is applied to the computed difference and not to the true offset: a request that
takes longer than its answer can hide an offset that is larger than the tolerance
(`slow_request_hides_offset`).
-/

namespace Kuasar.ClockSync

open MachineInt

/-! ## Time values -/

def nanosPerSec : ℕ := 1000000000

/-- `std::time::Duration`. -/
structure Duration where
  secs : ℕ
  nanos : ℕ
deriving DecidableEq, Repr

def Duration.fromNanos (n : ℕ) : Duration := ⟨n / nanosPerSec, n % nanosPerSec⟩

def Duration.fromMillis (n : ℕ) : Duration := .fromNanos (n * 1000000)

def Duration.fromSecs (n : ℕ) : Duration := ⟨n, 0⟩

def Duration.asNanos (d : Duration) : ℕ := d.secs * nanosPerSec + d.nanos

/-- `libc::timespec`. -/
structure TimeSpec where
  tvSec : ℤ
  tvNsec : ℤ
deriving DecidableEq, Repr

def TimeSpec.ofNanos (n : ℤ) : TimeSpec := ⟨n / nanosPerSec, n % nanosPerSec⟩

def TimeSpec.total (t : TimeSpec) : ℤ := t.tvSec * nanosPerSec + t.tvNsec

theorem total_ofNanos (n : ℤ) : (TimeSpec.ofNanos n).total = n := by
  exact Int.ediv_mul_add_emod n nanosPerSec

/-- What the clock code calls of the crate for time values; an addition can panic. -/
structure TimeApi where
  numNanoseconds : TimeSpec → ℤ
  fromDuration : Duration → TimeSpec
  add : TimeSpec → TimeSpec → Option TimeSpec

/-- The largest number of seconds that a sum of time values may have. -/
def maxSeconds : ℤ := (2 ^ 63 - 1) / nanosPerSec - 1

/-- The crate in a release build: it counts in 64-bit nanoseconds, which wrap, and asserts that
a sum is in bounds. -/
structure TimeApi.Release (api : TimeApi) : Prop where
  numNanoseconds : ∀ t : TimeSpec, 0 ≤ t.tvSec → 0 ≤ t.tvNsec →
    api.numNanoseconds t = wrapping 64 t.total
  fromDuration : ∀ d : Duration, d.secs < 2 ^ 63 → api.fromDuration d = ⟨d.secs, d.nanos⟩
  add : ∀ a b : TimeSpec, api.add a b =
    let n := wrapping 64 (api.numNanoseconds a + api.numNanoseconds b)
    if |n / nanosPerSec| ≤ maxSeconds then some (.ofNanos n) else none

/-- The guest's kernel: the times it lets the clock be set to. -/
structure Kernel where
  settable : TimeSpec → Bool

/-- `clock_settime` refuses times before the epoch. -/
def Kernel.Lawful (kernel : Kernel) : Prop := ∀ t, kernel.settable t = true → 0 ≤ t.tvSec

/-! ## The two clocks -/

/-- The clocks of host and guest, in nanoseconds since the epoch. -/
structure World where
  host : ℤ
  guest : ℤ
deriving DecidableEq, Repr

/-- Time passes. -/
def World.pass (w : World) (t : ℕ) : World := ⟨w.host + t, w.guest + t⟩

@[simp] theorem World.host_pass (w : World) (t : ℕ) : (w.pass t).host = w.host + t := rfl

@[simp] theorem World.guest_pass (w : World) (t : ℕ) : (w.pass t).guest = w.guest + t := rfl

/-- How much the guest is behind. -/
def World.offset (w : World) : ℤ := w.host - w.guest

/-- For a time `t` from now both clocks can be read in 64-bit nanoseconds, as the time type of
the kernels has it. -/
def World.InRange (w : World) (t : ℕ) : Prop :=
  0 ≤ w.host ∧ w.host + t < 2 ^ 63 ∧ 0 ≤ w.guest ∧ w.guest + t < 2 ^ 63

instance (w : World) (t : ℕ) : Decidable (w.InRange t) := inferInstanceAs (Decidable (_ ∧ _))

/-- `clock_gettime` on a clock at `n` nanoseconds. -/
def clockGettime (n : ℤ) : TimeSpec := .ofNanos n

/-! ## The protocol -/

structure SyncClockPacket where
  clientSendTime : ℤ := 0
  clientArriveTime : ℤ := 0
  serverSendTime : ℤ := 0
  serverArriveTime : ℤ := 0
  delta : ℤ := 0
deriving DecidableEq, Repr

section Round

variable (api : TimeApi) (kernel : Kernel)

/-- The guest adds the difference to the time it read. -/
def addDelta (delta now : ℤ) : Option TimeSpec :=
  api.add (clockGettime now) (api.fromDuration (.fromNanos (toUnsigned 64 delta)))

/-- `sync_clock` of the guest; `handling` is the time between its two looks at the clock. No
answer means that it failed, or panicked and took the agent with it. -/
def syncClock (handling : ℕ) (req : SyncClockPacket) (w : World) :
    World × Option SyncClockPacket :=
  if req.delta = 0 then
    let w' := w.pass handling
    (w', some { req with
      clientArriveTime := api.numNanoseconds (clockGettime w.guest)
      serverSendTime := api.numNanoseconds (clockGettime w'.guest) })
  else
    match addDelta api req.delta w.guest with
    | none => (w.pass handling, none)
    | some t =>
      let w' := w.pass handling
      if kernel.settable t then ({ w' with guest := t.total }, some req) else (w', none)

/-- The times that a call takes. -/
structure Trip where
  request : ℕ
  handling : ℕ
  reply : ℕ
deriving DecidableEq, Repr

def Trip.total (c : Trip) : ℕ := c.request + c.handling + c.reply

/-- `with_timeout` of both calls. -/
def rpcTimeout : ℕ := (Duration.fromSecs 1).asNanos

/-- A call to the guest. An answer that is late is an error for the host; what the guest did
stays done. -/
def call (c : Trip) (req : SyncClockPacket) (w : World) : World × Option SyncClockPacket :=
  let r := syncClock api kernel c.handling req (w.pass c.request)
  (r.1.pass c.reply, if c.total ≤ rpcTimeout then r.2 else none)

inductive ClockError where
  | getGuestClockPacket
  | integerOverflow (a : ℤ) (op : Char) (b : ℤ)
  | setDelta
deriving DecidableEq, Repr

/-- The result of a checked operation, or its error. -/
def orOverflow (a : ℤ) (op : Char) (b r : ℤ) : Except ClockError ℤ :=
  match checked 64 r with
  | some r => .ok r
  | none => .error (.integerOverflow a op b)

def checkedComputeDelta (cSend cArrive sSend sArrive : ℤ) : Except ClockError ℤ := do
  let deltaClient ← orOverflow cSend '-' cArrive (cSend - cArrive)
  let deltaServer ← orOverflow sArrive '-' sSend (sArrive - sSend)
  let deltaSum ← orOverflow deltaClient '+' deltaServer (deltaClient + deltaServer)
  orOverflow deltaSum '/' 2 (deltaSum.tdiv 2)

/-- The second call has no answer to look at. -/
def reportSet (r : World × Option SyncClockPacket) : World × Except ClockError Unit :=
  (r.1, match r.2 with
    | none => .error .setDelta
    | some _ => .ok ())

/-- `do_once_sync_clock`: one round, with the times that its one or two calls take. -/
def doOnceSyncClock (toleranceNanos : Duration) (first second : Trip) (w : World) :
    World × Except ClockError Unit :=
  let req : SyncClockPacket := { clientSendTime := api.numNanoseconds (clockGettime w.host) }
  match call api kernel first req w with
  | (w, none) => (w, .error .getGuestClockPacket)
  | (w, some p) =>
    let p := { p with serverArriveTime := api.numNanoseconds (clockGettime w.host) }
    match checkedComputeDelta p.clientSendTime p.clientArriveTime p.serverSendTime
        p.serverArriveTime with
    | .error e => (w, .error e)
    | .ok delta =>
      if wrapping 64 toleranceNanos.asNanos < |delta| then
        reportSet (call api kernel second { p with delta := delta } w)
      else (w, .ok ())

end Round

/-- `TIME_DIFF_TOLERANCE_IN_MS`. -/
def timeDiffToleranceInMs : ℕ := 10

/-- The tolerance that `client_sync_clock` passes. -/
def tolerance : Duration := .fromMillis timeDiffToleranceInMs

def toleranceNanos : ℤ := wrapping 64 tolerance.asNanos

/-! ## What a round computes -/

def deltaSum (first : Trip) (w : World) : ℤ :=
  (w.host - (w.guest + first.request)) +
    (w.host + first.total - (w.guest + first.request + first.handling))

/-- The difference that the host computes. -/
def delta (first : Trip) (w : World) : ℤ := (deltaSum first w).tdiv 2

def newTime (first second : Trip) (w : World) : ℤ :=
  w.guest + first.total + second.request + delta first w

/-- The new time is one that a sum of time values may have, and not before the epoch. -/
def Representable (n : ℤ) : Prop := 0 ≤ n ∧ n / nanosPerSec ≤ maxSeconds

instance (n : ℤ) : Decidable (Representable n) := inferInstanceAs (Decidable (_ ∧ _))

theorem deltaSum_eq (first : Trip) (w : World) :
    deltaSum first w = 2 * w.offset + first.reply - first.request := by
  unfold deltaSum World.offset Trip.total
  push_cast
  omega

/-- The division loses one at most. -/
theorem deltaSum_sub_delta (first : Trip) (w : World) :
    -1 ≤ deltaSum first w - 2 * delta first w ∧ deltaSum first w - 2 * delta first w ≤ 1 := by
  have hdiv := Int.mul_tdiv_add_tmod (deltaSum first w) 2
  have hlt := Int.tmod_lt_of_pos (deltaSum first w) (show (0 : ℤ) < 2 by decide)
  have hgt := Int.lt_tmod_of_pos (deltaSum first w) (show (0 : ℤ) < 2 by decide)
  unfold delta
  omega

/-- The difference is the offset, but for half of what the answer took longer than the request. -/
theorem offset_sub_delta (first : Trip) (w : World) :
    |2 * (w.offset - delta first w) - (first.request - first.reply)| ≤ 1 := by
  have hsum := deltaSum_eq first w
  have hround := deltaSum_sub_delta first w
  rw [abs_le]
  omega

theorem Duration.asNanos_fromNanos (n : ℕ) : (Duration.fromNanos n).asNanos = n :=
  Nat.div_add_mod' n nanosPerSec

section Lawful

variable {api : TimeApi} {kernel : Kernel} {first second : Trip} {w : World} {n d : ℤ}

/-- A clock in range reads as it is. -/
theorem numNanoseconds_gettime (hapi : api.Release) (h0 : 0 ≤ n) (hn : n < 2 ^ 63) :
    api.numNanoseconds (clockGettime n) = n := by
  have hsec : 0 ≤ (clockGettime n).tvSec := Int.ediv_nonneg h0 (by decide)
  have hnsec : 0 ≤ (clockGettime n).tvNsec := Int.emod_nonneg n (by decide)
  rw [hapi.numNanoseconds _ hsec hnsec]
  show wrapping 64 (TimeSpec.ofNanos n).total = n
  rw [total_ofNanos]
  apply wrapping_of_fits (by decide)
  unfold Fits
  omega

/-- The difference as the guest reads it: as 64-bit nanoseconds it is itself again. -/
theorem numNanoseconds_fromNanos (hapi : api.Release) (hd : Fits 64 d) :
    api.numNanoseconds (api.fromDuration (.fromNanos (toUnsigned 64 d))) = d := by
  have hlt : toUnsigned 64 d < 2 ^ 64 := toUnsigned_lt
  have hsecs : (Duration.fromNanos (toUnsigned 64 d)).secs < 2 ^ 63 := by
    show toUnsigned 64 d / nanosPerSec < 2 ^ 63
    unfold nanosPerSec
    omega
  rw [hapi.fromDuration _ hsecs,
    hapi.numNanoseconds _ (Int.natCast_nonneg _) (Int.natCast_nonneg _)]
  have htotal : TimeSpec.total ⟨(Duration.fromNanos (toUnsigned 64 d)).secs,
      (Duration.fromNanos (toUnsigned 64 d)).nanos⟩ = (toUnsigned 64 d : ℕ) := by
    have := Duration.asNanos_fromNanos (toUnsigned 64 d)
    show ((Duration.fromNanos (toUnsigned 64 d)).secs : ℤ) * nanosPerSec +
      (Duration.fromNanos (toUnsigned 64 d)).nanos = _
    exact_mod_cast this
  rw [htotal, wrapping_toUnsigned]
  exact wrapping_of_fits (by decide) hd

section

variable (hapi : api.Release) (h0 : 0 ≤ n) (hn : n < 2 ^ 63) (hd : Fits 64 d)

include hapi h0 hn hd

/-- The guest adds the difference, whatever its sign. -/
theorem addDelta_eq :
    addDelta api d n =
      if |wrapping 64 (n + d) / nanosPerSec| ≤ maxSeconds then
        some (.ofNanos (wrapping 64 (n + d)))
      else none := by
  unfold addDelta
  rw [hapi.add, numNanoseconds_gettime hapi h0 hn, numNanoseconds_fromNanos hapi hd]

/-- What is not representable is refused: it is out of bounds, before the epoch, or wraps to a
time before the epoch. -/
theorem refused_of_not_representable (hkernel : kernel.Lawful) (hrep : ¬ Representable (n + d))
    {t : TimeSpec} (ht : addDelta api d n = some t) : kernel.settable t = false := by
  rw [addDelta_eq hapi h0 hn hd] at ht
  split at ht
  · rename_i hbound
    cases ht
    rw [Bool.eq_false_iff]
    intro hset
    have hsec : 0 ≤ wrapping 64 (n + d) / nanosPerSec := hkernel _ hset
    apply hrep
    -- the sum did not wrap: it would have become negative
    have hfits : Fits 64 (n + d) := by
      by_contra hnot
      have hneg : wrapping 64 (n + d) = n + d - 2 ^ 64 := by
        have hover : Fits 64 (n + d - 2 ^ 64) := by
          unfold Fits at hd hnot ⊢
          omega
        rw [← wrapping_of_fits (by decide) hover]
        exact (Int.sub_bmod_right (n + d) (2 ^ 64)).symm
      unfold Fits at hd
      unfold nanosPerSec at hsec
      omega
    rw [wrapping_of_fits (by decide) hfits] at hsec hbound
    refine ⟨?_, (abs_le.mp hbound).2⟩
    unfold nanosPerSec at hsec
    omega
  · cases ht

/-- What is representable is what the guest asks its kernel to set. -/
theorem addDelta_of_representable (hrep : Representable (n + d)) :
    addDelta api d n = some (.ofNanos (n + d)) := by
  obtain ⟨hpos, hmax⟩ := hrep
  have hfits : Fits 64 (n + d) := by
    unfold maxSeconds nanosPerSec at hmax
    unfold Fits
    omega
  rw [addDelta_eq hapi h0 hn hd, wrapping_of_fits (by decide) hfits, if_pos]
  rw [abs_le]
  refine ⟨?_, hmax⟩
  have hdiv : 0 ≤ (n + d) / nanosPerSec := Int.ediv_nonneg hpos (by decide)
  omega

end

theorem World.pass_pass (w : World) (t u : ℕ) : (w.pass t).pass u = w.pass (t + u) := by
  simp only [World.pass, World.mk.injEq]
  push_cast
  omega

theorem World.offset_pass (w : World) (t : ℕ) : (w.pass t).offset = w.offset := by
  unfold World.offset
  simp

/-! ## The calls -/

/-- The first call only reads clocks. -/
theorem call_query (c : Trip) {req : SyncClockPacket} (hreq : req.delta = 0) :
    call api kernel c req w = (w.pass c.total, if c.total ≤ rpcTimeout then some { req with
      clientArriveTime := api.numNanoseconds (clockGettime (w.guest + c.request))
      serverSendTime := api.numNanoseconds (clockGettime (w.guest + c.request + c.handling)) }
      else none) := by
  unfold call syncClock
  simp only [hreq, if_true, World.pass_pass, World.guest_pass, Trip.total]
  push_cast
  simp only [add_assoc]

/-- The second call sets the clock to a time that the kernel accepts. -/
theorem call_set (hapi : api.Release) (c : Trip) {req : SyncClockPacket} (hreq : req.delta ≠ 0)
    (hd : Fits 64 req.delta) (h0 : 0 ≤ w.guest) (hn : w.guest + c.request < 2 ^ 63)
    (hrep : Representable (w.guest + c.request + req.delta))
    (hset : kernel.settable (.ofNanos (w.guest + c.request + req.delta)) = true) :
    (call api kernel c req w).1.offset = w.offset - req.delta + c.handling := by
  have hadd := addDelta_of_representable hapi (show 0 ≤ (w.pass c.request).guest by
    show 0 ≤ w.guest + c.request
    omega) hn hd hrep
  have hsync : (syncClock api kernel c.handling req (w.pass c.request)).1 =
      ⟨w.host + c.request + c.handling, w.guest + c.request + req.delta⟩ := by
    unfold syncClock
    rw [if_neg hreq, hadd]
    simp only [World.guest_pass, World.host_pass, hset, if_true, total_ofNanos]
  have hcall : (call api kernel c req w).1 =
      (syncClock api kernel c.handling req (w.pass c.request)).1.pass c.reply := rfl
  rw [hcall, hsync]
  simp only [World.offset, World.pass]
  omega

/-- It fails for any other, and leaves the clock alone. -/
theorem call_refused (c : Trip) {req : SyncClockPacket} (hreq : req.delta ≠ 0)
    (hrefused : ∀ t, addDelta api req.delta (w.guest + c.request) = some t →
      kernel.settable t = false) :
    call api kernel c req w = (w.pass c.total, none) := by
  have hnone : syncClock api kernel c.handling req (w.pass c.request) =
      ((w.pass c.request).pass c.handling, none) := by
    unfold syncClock
    rw [if_neg hreq]
    split
    · rfl
    · rename_i t ht
      simp only [hrefused t ht, Bool.false_eq_true, if_false]
  unfold call
  simp only [hnone, World.pass_pass, ite_self]
  rfl

/-! ## The round -/

theorem orOverflow_of_fits {a b r : ℤ} {op : Char} (h : Fits 64 r) :
    orOverflow a op b r = .ok r := by
  rw [orOverflow, checked_of_fits h]

theorem orOverflow_of_not_fits {a b r : ℤ} {op : Char} (h : ¬ Fits 64 r) :
    orOverflow a op b r = .error (.integerOverflow a op b) := by
  rw [orOverflow, checked_of_not_fits h]

/-- Of the host's checks only the one of the sum can fail. -/
theorem checkedComputeDelta_eq {t : ℕ} (ht : first.total ≤ t) (hrange : w.InRange t) :
    checkedComputeDelta w.host (w.guest + first.request)
        (w.guest + first.request + first.handling) (w.host + first.total) =
      if Fits 64 (deltaSum first w) then .ok (delta first w)
      else .error (.integerOverflow (w.host - (w.guest + first.request)) '+'
        (w.host + first.total - (w.guest + first.request + first.handling))) := by
  obtain ⟨hhost, hhost', hguest, hguest'⟩ := hrange
  have hclient : Fits 64 (w.host - (w.guest + first.request)) := by
    unfold Fits
    unfold Trip.total at ht
    omega
  have hserver : Fits 64 (w.host + first.total - (w.guest + first.request + first.handling)) := by
    unfold Fits
    unfold Trip.total at ht ⊢
    omega
  unfold checkedComputeDelta
  rw [orOverflow_of_fits hclient, orOverflow_of_fits hserver]
  split
  · rename_i hsum
    have hhalf : Fits 64 ((deltaSum first w).tdiv 2) := by
      have hround := deltaSum_sub_delta first w
      unfold delta at hround
      unfold Fits at hsum ⊢
      omega
    show (orOverflow _ _ _ (deltaSum first w)).bind _ = _
    rw [orOverflow_of_fits hsum]
    show orOverflow _ _ _ ((deltaSum first w).tdiv 2) = _
    rw [orOverflow_of_fits hhalf]
    rfl
  · rename_i hsum
    show (orOverflow _ _ _ (deltaSum first w)).bind _ = _
    rw [orOverflow_of_not_fits hsum]
    rfl

def deltaPacket (first : Trip) (w : World) (d : ℤ) : SyncClockPacket where
  clientSendTime := w.host
  clientArriveTime := w.guest + first.request
  serverSendTime := w.guest + first.request + first.handling
  serverArriveTime := w.host + first.total
  delta := d

/-- The round after its first call. -/
theorem doOnceSyncClock_eq (hapi : api.Release) {tol : Duration} {t : ℕ} (ht : first.total ≤ t)
    (hrange : w.InRange t) :
    doOnceSyncClock api kernel tol first second w =
      if first.total ≤ rpcTimeout then
        if Fits 64 (deltaSum first w) then
          if wrapping 64 tol.asNanos < |delta first w| then
            reportSet (call api kernel second (deltaPacket first w (delta first w))
              (w.pass first.total))
          else (w.pass first.total, .ok ())
        else (w.pass first.total, .error (.integerOverflow (w.host - (w.guest + first.request)) '+'
          (w.host + first.total - (w.guest + first.request + first.handling))))
      else (w.pass first.total, .error .getGuestClockPacket) := by
  have hdelta := checkedComputeDelta_eq ht hrange
  obtain ⟨hhost, hhost', hguest, hguest'⟩ := hrange
  have hle : first.request + first.handling ≤ t := by
    unfold Trip.total at ht
    omega
  have hread : ∀ n : ℤ, 0 ≤ n → n < 2 ^ 63 → api.numNanoseconds (clockGettime n) = n :=
    fun n h0 hn => numNanoseconds_gettime hapi h0 hn
  have hquery := @call_query api kernel w first
    { clientSendTime := api.numNanoseconds (clockGettime w.host) } rfl
  rw [hread w.host hhost (by omega), hread (w.guest + first.request) (by omega) (by omega),
    hread (w.guest + first.request + first.handling) (by omega) (by omega)] at hquery
  unfold doOnceSyncClock
  rw [hread w.host hhost (by omega)]
  dsimp only
  rw [hquery]
  by_cases hlate : first.total ≤ rpcTimeout
  · rw [if_pos hlate, if_pos hlate]
    dsimp only [World.host_pass]
    rw [hread (w.host + first.total) (by omega) (by omega), hdelta]
    by_cases hfits : Fits 64 (deltaSum first w)
    · rw [if_pos hfits, if_pos hfits]
      rfl
    · rw [if_neg hfits, if_neg hfits]
  · rw [if_neg hlate, if_neg hlate]

def Sent (first : Trip) (w : World) : Prop :=
  first.total ≤ rpcTimeout ∧ Fits 64 (deltaSum first w) ∧ toleranceNanos < |delta first w|

instance : Decidable (Sent first w) := inferInstanceAs (Decidable (_ ∧ _))

/-- The new time can be computed and the kernel accepts it. -/
def Accepted (kernel : Kernel) (n : ℤ) : Prop :=
  Representable n ∧ kernel.settable (.ofNanos n) = true

instance : Decidable (Accepted kernel n) := inferInstanceAs (Decidable (_ ∧ _))

theorem Sent.delta_ne_zero (h : Sent first w) : delta first w ≠ 0 := by
  intro hzero
  have hlt := h.2.2
  rw [hzero, abs_zero] at hlt
  exact absurd hlt (by decide)

theorem Sent.fits (h : Sent first w) : Fits 64 (delta first w) := by
  have hsum := h.2.1
  have hround := deltaSum_sub_delta first w
  unfold Fits at hsum ⊢
  omega

section

variable (hapi : api.Release) (hrange : w.InRange (first.total + second.total))

include hapi hrange

/-- A difference that is sent: the round ends with its second call. -/
theorem doOnceSyncClock_sent (h : Sent first w) :
    doOnceSyncClock api kernel tolerance first second w =
      reportSet (call api kernel second (deltaPacket first w (delta first w))
        (w.pass first.total)) := by
  rw [doOnceSyncClock_eq hapi (Nat.le_add_right _ _) hrange, if_pos h.1, if_pos h.2.1]
  exact if_pos h.2.2

theorem sent_accepted (h : Sent first w) (haccept : Accepted kernel (newTime first second w)) :
    (doOnceSyncClock api kernel tolerance first second w).1.offset =
      w.offset - delta first w + second.handling := by
  rw [doOnceSyncClock_sent hapi hrange h]
  obtain ⟨-, -, hguest, hguest'⟩ := hrange
  unfold Trip.total at hguest'
  have hset : (call api kernel second (deltaPacket first w (delta first w))
      (w.pass first.total)).1.offset =
      (w.pass first.total).offset - delta first w + second.handling := by
    refine call_set hapi second h.delta_ne_zero h.fits ?_ ?_ haccept.1 haccept.2
    · rw [World.guest_pass]
      omega
    · rw [World.guest_pass]
      unfold Trip.total
      omega
  rw [World.offset_pass] at hset
  exact hset

theorem sent_refused (hkernel : kernel.Lawful) (h : Sent first w)
    (hrefuse : ¬ Accepted kernel (newTime first second w)) :
    doOnceSyncClock api kernel tolerance first second w =
      (w.pass (first.total + second.total), .error .setDelta) := by
  rw [doOnceSyncClock_sent hapi hrange h]
  obtain ⟨-, -, hguest, hguest'⟩ := hrange
  unfold Trip.total at hguest'
  have h0 : 0 ≤ (w.pass first.total).guest + second.request := by
    rw [World.guest_pass]
    omega
  have hn : (w.pass first.total).guest + second.request < 2 ^ 63 := by
    rw [World.guest_pass]
    unfold Trip.total
    omega
  rw [call_refused second h.delta_ne_zero, World.pass_pass]
  · rfl
  · intro t ht
    by_cases hrep : Representable (newTime first second w)
    · -- the kernel itself refuses
      have ht : addDelta api (delta first w) _ = some t := ht
      rw [addDelta_of_representable hapi h0 hn h.fits hrep] at ht
      cases ht
      rw [Bool.eq_false_iff]
      exact fun hset => hrefuse ⟨hrep, hset⟩
    · exact refused_of_not_representable hapi h0 hn h.fits hkernel hrep ht

theorem not_sent (h : ¬ Sent first w) :
    (doOnceSyncClock api kernel tolerance first second w).1 = w.pass first.total := by
  rw [doOnceSyncClock_eq hapi (Nat.le_add_right _ _) hrange]
  split
  · rename_i hlate
    split
    · rename_i hfits
      rw [if_neg]
      exact fun hlt => h ⟨hlate, hfits, hlt⟩
    · rfl
  · rfl

end

/-- One round, while both clocks are in the range of 64-bit nanoseconds. A difference that is sent
is added to the guest's clock if the new time is one that can be computed and set, and what is left
of the offset is half the difference of the two delays, up to rounding (and the time that the guest
takes to set its clock). Otherwise the clock is left alone. That is reported as an error when a sum
overflows or the new time does, and not when the difference is within the tolerance. -/
theorem sync_round (hapi : api.Release) (hkernel : kernel.Lawful)
    (hrange : w.InRange (first.total + second.total)) :
    (Sent first w ∧ Accepted kernel (newTime first second w) →
      (doOnceSyncClock api kernel tolerance first second w).1.offset =
          w.offset - delta first w + second.handling ∧
        |2 * (w.offset - delta first w) - (first.request - first.reply)| ≤ 1) ∧
    (¬ (Sent first w ∧ Accepted kernel (newTime first second w)) →
      (doOnceSyncClock api kernel tolerance first second w).1.offset = w.offset) ∧
    (¬ Fits 64 (deltaSum first w) ∨
        (Sent first w ∧ ¬ Representable (newTime first second w)) →
      ∃ e, (doOnceSyncClock api kernel tolerance first second w).2 = .error e) := by
  refine ⟨?_, ?_, ?_⟩
  · rintro ⟨hsent, haccept⟩
    exact ⟨sent_accepted hapi hrange hsent haccept, offset_sub_delta first w⟩
  · intro hnot
    by_cases hsent : Sent first w
    · rw [sent_refused hapi hrange hkernel hsent fun haccept => hnot ⟨hsent, haccept⟩,
        World.offset_pass]
    · rw [not_sent hapi hrange hsent, World.offset_pass]
  · rintro (hover | ⟨hsent, hrep⟩)
    · rw [doOnceSyncClock_eq hapi (Nat.le_add_right _ _) hrange, if_neg hover]
      split
      · exact ⟨_, rfl⟩
      · exact ⟨_, rfl⟩
    · rw [sent_refused hapi hrange hkernel hsent fun haccept => hrep haccept.1]
      exact ⟨_, rfl⟩

end Lawful

/-- The crate's functions where they are defined by its documentation. -/
def releaseApi : TimeApi where
  numNanoseconds t := wrapping 64 t.total
  fromDuration d := ⟨d.secs, d.nanos⟩
  add a b :=
    let n := wrapping 64 (wrapping 64 a.total + wrapping 64 b.total)
    if |n / nanosPerSec| ≤ maxSeconds then some (.ofNanos n) else none

theorem release_releaseApi : releaseApi.Release where
  numNanoseconds _ _ _ := rfl
  fromDuration _ _ := rfl
  add _ _ := rfl

def sinceEpoch : Kernel := ⟨fun t => 0 ≤ t.tvSec⟩

theorem lawful_sinceEpoch : sinceEpoch.Lawful := by
  intro t ht
  simpa [sinceEpoch] using ht

/-- A call with delays of 1 ms. -/
def promptTrip : Trip := ⟨1000000, 0, 1000000⟩

/-- The guest is 20 ms ahead, and is set back. -/
theorem sync_round_ahead :
    (doOnceSyncClock releaseApi sinceEpoch tolerance promptTrip promptTrip
      ⟨1000000000000000000, 1000000000020000000⟩).1.offset = 0 :=
  ((@sync_round releaseApi sinceEpoch promptTrip promptTrip
    ⟨1000000000000000000, 1000000000020000000⟩ release_releaseApi lawful_sinceEpoch
    (by decide)).1 (by decide)).1

/-- The guest is 11 ms behind, but the request takes 4 ms and the answer no time. The host computes
9 ms, which is within the tolerance. -/
theorem slow_request_hides_offset :
    ¬ ∀ (first second : Trip) (w : World), w.InRange (first.total + second.total) →
      toleranceNanos < |w.offset| → first.total ≤ rpcTimeout → Fits 64 (deltaSum first w) →
      Accepted sinceEpoch (newTime first second w) →
      (doOnceSyncClock releaseApi sinceEpoch tolerance first second w).1.offset =
        w.offset - delta first w + second.handling := by
  intro h
  have hmoved := h ⟨4000000, 0, 0⟩ promptTrip ⟨1000000000011000000, 1000000000000000000⟩
    (by decide) (by decide) (by decide) (by decide) (by decide)
  exact absurd hmoved (by decide)

end Kuasar.ClockSync

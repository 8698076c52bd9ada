import Kuasar.Runc.SandboxParent

/-!
# Runc.ForkProtocol — requests and answers stay in step

`InStep` says where the two ends of the protocol can be at the same time, and what is in the pipes
then. It holds over any sequence of calls and whatever process dies at whatever point, as long as
the reads and writes of the sandboxer itself do not fail. It follows what a call returns: the number
that the bytes of the pid stand for that came through before a process died. This is the pid of the
process that was forked for the call if all four came through; else it is the low part of it, or 0.
-/

namespace Kuasar.Runc

open Tla

/-! ## The bytes of a pid -/

variable {n v : ℕ} {bs got pipe : List UInt8} {child : Child} {r : Request}

theorem fits_of_lt (h : n < 2 ^ 31) : MachineInt.Fits 32 n := by
  constructor <;> omega

theorem pidBytes_natCast (h : n < 2 ^ 31) : pidBytes n = toLeBytes 4 n := by
  have hcast : ((MachineInt.toUnsigned 32 n : ℕ) : ℤ) = n := by
    rw [MachineInt.toUnsigned_cast]
    omega
  rw [pidBytes, Int.ofNat_inj.mp hcast]

theorem pidOf_field (hn : n < 2 ^ 31) (hbs : bs <+: toLeBytes 4 n) :
    pidOf (field 4 bs) = (n % 256 ^ bs.length : ℕ) := by
  have hlen : bs.length ≤ 4 := by
    simpa [length_toLeBytes] using hbs.length_le
  have htake : bs = toLeBytes bs.length n := by
    rw [← take_toLeBytes hlen]
    exact List.prefix_iff_eq_take.mp hbs
  have hval : fromLeBytes (field 4 bs) = n % 256 ^ bs.length := by
    rw [field, fromLeBytes_append_zeros]
    conv_lhs => rw [htake]
    exact fromLeBytes_toLeBytes _ _
  have hlt : n % 256 ^ bs.length < 2 ^ 31 := Nat.lt_of_le_of_lt (Nat.mod_le _ _) hn
  rw [pidOf, hval, MachineInt.wrapping_of_fits (by omega) (fits_of_lt hlt)]

theorem mod_mod_pow (n j k : ℕ) : n % 256 ^ j % 256 ^ k = n % 256 ^ min j k := by
  rcases Nat.le_total j k with h | h
  · have hpos : 0 < 256 ^ j := Nat.pow_pos (by decide)
    have hle : 256 ^ j ≤ 256 ^ k := Nat.pow_le_pow_right (by decide) h
    rw [Nat.min_eq_left h, Nat.mod_eq_of_lt (Nat.lt_of_lt_of_le (Nat.mod_lt _ hpos) hle)]
  · rw [Nat.min_eq_right h, Nat.mod_mod_of_dvd _ (Nat.pow_dvd_pow _ h)]

/-! ## The invariant -/

/-- `v` is what `j` bytes say of the pid of the sandbox process of request `n`. -/
def Part (forks : List Fork) (n j v : ℕ) : Prop :=
  (j = 0 ∧ v = 0) ∨ ∃ f ∈ forks, f.request = n ∧ v = f.pid % 256 ^ j

/-- What the child of the request at hand has said so far. -/
def Says (s : Wire) (bs : List UInt8) : Child → Prop
  | .starting => bs = [] ∧ ∀ f ∈ s.forks, f.request + 1 < s.served
  | .writing rest => ∃ f ∈ s.forks, f.request + 1 = s.served ∧ bs ++ rest = toLeBytes 4 f.pid
  | .gone => bs = [] ∨ ∃ f ∈ s.forks, f.request + 1 = s.served ∧ bs <+: toLeBytes 4 f.pid

/-- The sandbox parent has `got` of the last request, and the rest is on its way. -/
structure Sending (s : Wire) (got rest : List UInt8) : Prop where
  request : ∃ r bytes, s.sent.getLast? = some r ∧ encode r = some bytes ∧
    got ++ s.req ++ rest = bytes
  served : s.served + 1 = s.sent.length
  resp : s.resp = []
  heard : s.heard = 0

/-- The sandbox parent works on the last request. -/
structure Serving (s : Wire) (r : Request) : Prop where
  request : ∃ r' bytes, s.sent.getLast? = some r' ∧ encode r' = some bytes ∧ r = decode bytes
  served : s.served = s.sent.length
  req : s.req = []
  resp : s.resp = []
  heard : s.heard = 0

/-- The two ends of the protocol, and what is in the pipes between them. -/
inductive InStep (s : Wire) : Caller → Parent → Prop where
  | idle (hserved : s.served = s.sent.length) (hreq : s.req = []) (hresp : s.resp = []) :
      InStep s .idle (.reading [])
  | sending {rest got : List UInt8} (hrest : rest ≠ []) (h : Sending s got rest) :
      InStep s (.writing rest) (.reading got)
  | sent {got : List UInt8} (h : Sending s got []) : InStep s (.reading []) (.reading got)
  | serving {r : Request} (h : Serving s r) (hno : ∀ f ∈ s.forks, f.request + 1 < s.served) :
      InStep s (.reading []) (.serving r)
  | waiting {r : Request} {child : Child} {pipe got : List UInt8} (h : Serving s r)
      (hword : Says s (got ++ pipe) child) : InStep s (.reading []) (.waiting r child pipe got)
  | answering {got rest : List UInt8} {v : ℕ} (hrest : rest ≠ [])
      (hserved : s.served = s.sent.length)
      (hreq : s.req = []) (hpart : Part s.forks (s.sent.length - 1) s.heard v) (hv : v < 2 ^ 31)
      (h : got ++ s.resp ++ rest = toLeBytes 4 v) : InStep s (.reading got) (.answering rest)
  | answered {got : List UInt8} {v : ℕ} (hserved : s.served = s.sent.length) (hreq : s.req = [])
      (hpart : Part s.forks (s.sent.length - 1) s.heard v) (hv : v < 2 ^ 31)
      (h : got ++ s.resp = toLeBytes 4 v) : InStep s (.reading got) (.reading [])
  | orphaned {r : Request} {forked : Bool} (h : Serving s r)
      (hno : forked = false → ∀ f ∈ s.forks, f.request + 1 < s.served) :
      InStep s (.reading []) (.orphan r forked)
  | deadIdle (hresp : s.resp = []) : InStep s .idle .dead
  | deadWriting {rest : List UInt8} (hresp : s.resp = []) (hheard : s.heard = 0) :
      InStep s (.writing rest) .dead
  | deadReading {got : List UInt8} {v : ℕ}
      (hpart : Part s.forks (s.sent.length - 1) s.heard v) (hv : v < 2 ^ 31)
      (h : got ++ s.resp <+: toLeBytes 4 v) : InStep s (.reading got) .dead

structure Inv (s : State) : Prop where
  phase : InStep s.toWire s.caller s.parent
  served : s.served ≤ s.sent.length
  forks : ∀ f ∈ s.forks, f.request < s.served ∧ 0 < f.pid ∧ f.pid < 2 ^ 31 ∧
    ∃ r bytes, s.sent[f.request]? = some r ∧ encode r = some bytes ∧ f.decoded = decode bytes
  ordered : s.forks.Pairwise fun f g => f.request < g.request
  returns : ∀ r ∈ s.returns, ∀ p, r.result = .ok p →
    ∃ v : ℕ, p = v ∧ Part s.forks r.request r.heard v

/-! ## What one step preserves -/

variable {s s' : State} {l : Label}

theorem Part.mono {forks forks' : List Fork} {j : ℕ} (hsub : ∀ f ∈ forks, f ∈ forks')
    (h : Part forks n j v) : Part forks' n j v := by
  rcases h with h0 | ⟨f, hf, hn, hv⟩
  · exact Or.inl h0
  · exact Or.inr ⟨f, hsub f hf, hn, hv⟩

/-- The first `k` bytes of a part. -/
theorem Part.take {forks : List Fork} {j : ℕ} (h : Part forks n j v) (k : ℕ) :
    Part forks n (min j k) (v % 256 ^ k) := by
  rcases h with ⟨rfl, rfl⟩ | ⟨f, hf, hn, rfl⟩
  · exact Or.inl ⟨Nat.zero_min k, Nat.zero_mod _⟩
  · exact Or.inr ⟨f, hf, hn, mod_mod_pow _ _ _⟩

/-- A step that makes no request, no process and no result. -/
theorem Inv.of_phase (h : Inv s) (hsent : s'.sent = s.sent) (hserved : s'.served = s.served)
    (hforks : s'.forks = s.forks) (hreturns : s'.returns = s.returns)
    (hphase : InStep s'.toWire s'.caller s'.parent) : Inv s' where
  phase := hphase
  served := by
    rw [hsent, hserved]
    exact h.served
  forks := by
    rw [hsent, hserved, hforks]
    exact h.forks
  ordered := by
    rw [hforks]
    exact h.ordered
  returns := by
    rw [hforks, hreturns]
    exact h.returns

/-- The end of a call. -/
theorem Inv.finish (h : Inv s) (result : Except CallError ℤ) (heard : ℕ)
    (hphase : InStep s.toWire .idle s.parent)
    (hresult : ∀ p, result = .ok p → ∃ v : ℕ, p = v ∧
      Part s.forks (s.sent.length - 1) heard v) : Inv (s.finish result heard) where
  phase := hphase
  served := h.served
  forks := h.forks
  ordered := h.ordered
  returns r hr := by
    rcases List.mem_append.mp hr with hr | hr
    · exact h.returns r hr
    · rw [List.mem_singleton] at hr
      subst hr
      exact hresult

/-- What the child said is the first part of the pid of a process it forked. -/
theorem Says.part (hinv : Inv s) (h : Says s.toWire (got ++ pipe) child) :
    ∃ v : ℕ, v < 2 ^ 31 ∧ pidOf (field 4 got) = (v : ℤ) ∧
      Part s.forks (s.served - 1) got.length v := by
  have hforked : ∀ f ∈ s.forks, f.request + 1 = s.served → got <+: toLeBytes 4 f.pid →
      ∃ v : ℕ, v < 2 ^ 31 ∧ pidOf (field 4 got) = (v : ℤ) ∧
        Part s.forks (s.served - 1) got.length v := by
    intro f hf hreq hgot
    have hlt := (hinv.forks f hf).2.2.1
    refine ⟨f.pid % 256 ^ got.length, Nat.lt_of_le_of_lt (Nat.mod_le _ _) hlt,
      pidOf_field hlt hgot, Or.inr ⟨f, hf, by omega, rfl⟩⟩
  have hnone : got ++ pipe = [] → ∃ v : ℕ, v < 2 ^ 31 ∧ pidOf (field 4 got) = (v : ℤ) ∧
      Part s.forks (s.served - 1) got.length v := by
    intro hnil
    have hgot : got = [] := (List.append_eq_nil_iff.mp hnil).1
    subst hgot
    exact ⟨0, by omega, by decide, Or.inl ⟨rfl, rfl⟩⟩
  cases child with
  | starting => exact hnone h.1
  | writing rest =>
    obtain ⟨f, hf, hreq, hall⟩ := h
    exact hforked f hf hreq ⟨pipe ++ rest, by rw [← List.append_assoc]; exact hall⟩
  | gone =>
    rcases h with hnil | ⟨f, hf, hreq, hpre⟩
    · exact hnone hnil
    · exact hforked f hf hreq ((List.prefix_append got pipe).trans hpre)

/-- What a call returns is the part of the pid that came through. -/
theorem returned_part (hv : v < 2 ^ 31) (hpart : Part s.forks (s.sent.length - 1) s.heard v)
    (hgot : got <+: toLeBytes 4 v) :
    ∀ p, (Except.ok (pidOf (field 4 got)) : Except CallError ℤ) = .ok p → ∃ w : ℕ, p = w ∧
      Part s.forks (s.sent.length - 1) (min s.heard got.length) w := by
  intro p hp
  have hval : pidOf (field 4 got) = p := Except.ok.inj hp
  exact ⟨v % 256 ^ got.length, hval.symm.trans (pidOf_field hv hgot), hpart.take got.length⟩

/-- The sandboxer does not fail by itself: its writes fail only when there is no sandbox parent,
and its reads do not. -/
def Sound : Label → StatePred State
  | .writeFails, s => s.parent = .dead
  | .readFails, _ => False
  | _, _ => True

theorem inv_init : Inv {} where
  phase := .idle rfl rfl rfl
  served := Nat.le_refl 0
  forks := nofun
  ordered := .nil
  returns := nofun

/-- A call that has got nothing, and there is no one left to answer it. -/
theorem inStep_dead {w : Wire} (hheard : w.heard = 0) (hresp : w.resp = []) :
    InStep w (.reading []) .dead :=
  .deadReading (v := 0) (Or.inl ⟨hheard, rfl⟩) (by decide) (by simp [hresp])

section

variable (hinv : Inv s)

include hinv

theorem inv_call {bytes : List UInt8} (hc : s.caller = .idle) (henc : encode r = some bytes) :
    Inv { s with caller := .writing bytes, sent := s.sent ++ [r], heard := 0 } := by
  have hphase := hinv.phase
  rw [hc] at hphase
  refine ⟨?_, ?_, ?_, hinv.ordered, hinv.returns⟩
  · show InStep _ (.writing bytes) s.parent
    generalize s.parent = parent at hphase
    cases hphase with
    | idle hserved hreq hresp =>
      apply InStep.sending
      · rintro rfl
        exact absurd (length_encode henc) (by decide)
      · exact ⟨⟨r, bytes, by simp, henc, by simp [hreq]⟩, by simp [hserved], hresp, rfl⟩
    | deadIdle hresp => exact .deadWriting hresp rfl
  · have := hinv.served
    simp only [List.length_append, List.length_singleton]
    omega
  · intro f hf
    obtain ⟨hserved, hpos, hlt, r', bytes', hr', hrest⟩ := hinv.forks f hf
    refine ⟨hserved, hpos, hlt, r', bytes', ?_, hrest⟩
    exact List.getElem?_append_left (List.getElem?_eq_some_iff.mp hr').1 ▸ hr'

theorem inv_write {rest : List UInt8} (hc : s.caller = .writing (bs ++ rest)) :
    Inv { s with caller := .send rest, req := s.req ++ bs } := by
  have hphase := hinv.phase
  rw [hc] at hphase
  refine hinv.of_phase rfl rfl rfl rfl ?_
  show InStep _ (.send rest) s.parent
  generalize s.parent = parent at hphase
  cases hphase with
  | @sending _ got hrest h =>
    obtain ⟨⟨r, bytes, hr, henc, hall⟩, hserved, hresp, hheard⟩ := h
    have hall' : got ++ (s.req ++ bs) ++ rest = bytes := by simpa using hall
    cases rest with
    | nil => exact .sent ⟨⟨r, bytes, hr, henc, hall'⟩, hserved, hresp, hheard⟩
    | cons b rest =>
      exact .sending (by simp) ⟨⟨r, bytes, hr, henc, hall'⟩, hserved, hresp, hheard⟩
  | deadWriting hresp hheard =>
    cases rest with
    | nil =>
      refine .deadReading (v := 0) (Or.inl ⟨hheard, rfl⟩) (by decide) ?_
      simp [hresp]
    | cons b rest => exact .deadWriting hresp hheard

theorem inv_read {resp : List UInt8} (hc : s.caller = .reading got) (hresp : s.resp = bs ++ resp) :
    Inv { s with caller := .reading (got ++ bs), resp := resp } := by
  have hphase := hinv.phase
  rw [hc] at hphase
  refine hinv.of_phase rfl rfl rfl rfl ?_
  show InStep _ (.reading (got ++ bs)) s.parent
  generalize s.parent = parent at hphase
  -- before the answer there is nothing to read
  have hnil : s.resp = [] → bs = [] ∧ resp = [] := fun h =>
    List.append_eq_nil_iff.mp (hresp.symm.trans h)
  cases hphase with
  | sent h =>
    obtain ⟨rfl, rfl⟩ := hnil h.resp
    exact .sent ⟨h.request, h.served, rfl, h.heard⟩
  | serving h hno =>
    obtain ⟨rfl, rfl⟩ := hnil h.resp
    exact .serving ⟨h.request, h.served, h.req, rfl, h.heard⟩ hno
  | waiting h hword =>
    obtain ⟨rfl, rfl⟩ := hnil h.resp
    exact .waiting ⟨h.request, h.served, h.req, rfl, h.heard⟩ hword
  | orphaned h hno =>
    obtain ⟨rfl, rfl⟩ := hnil h.resp
    exact .orphaned ⟨h.request, h.served, h.req, rfl, h.heard⟩ hno
  | answering hrest hserved hreq hpart hv h =>
    rw [hresp] at h
    exact .answering hrest hserved hreq hpart hv (by simpa using h)
  | answered hserved hreq hpart hv h =>
    rw [hresp] at h
    exact .answered hserved hreq hpart hv (by simpa using h)
  | deadReading hpart hv h =>
    rw [hresp] at h
    exact .deadReading hpart hv (by simpa using h)

theorem inv_returned (hc : s.caller = .reading got)
    (h : got.length = 4 ∨ (s.parent = .dead ∧ s.alive = [] ∧ s.resp = [])) :
    Inv (s.finish (.ok (pidOf (field 4 got))) (min s.heard got.length)) := by
  have hphase := hinv.phase
  rw [hc] at hphase
  have hfinish := hinv.finish (.ok (pidOf (field 4 got))) (min s.heard got.length)
  generalize hp : s.parent = parent at hphase h hfinish
  -- before the answer a call has nothing, and the sandbox parent is there
  have hearly : got = [] → parent ≠ .dead → False := by
    rintro rfl halive
    rcases h with h | h
    · cases h
    · exact halive h.1
  cases hphase with
  | sent | serving | waiting | orphaned => exact (hearly rfl (by simp)).elim
  | answering hrest hserved hreq hpart hv hall =>
    have hlen := congrArg List.length hall
    have hpos := List.length_pos_iff.mpr hrest
    simp only [List.length_append, length_toLeBytes] at hlen
    rcases h with h | h
    · omega
    · cases h.1
  | answered hserved hreq hpart hv hall =>
    have hlen := congrArg List.length hall
    simp only [List.length_append, length_toLeBytes] at hlen
    rcases h with h | h
    · have hresp : s.resp = [] := List.length_eq_zero_iff.mp (by omega)
      exact hfinish (.idle hserved hreq hresp) (returned_part hv hpart ⟨s.resp, hall⟩)
    · cases h.1
  | deadReading hpart hv hpre =>
    have hlen := hpre.length_le
    simp only [List.length_append, length_toLeBytes] at hlen
    have hresp : s.resp = [] := by
      rcases h with h | h
      · exact List.length_eq_zero_iff.mp (by omega)
      · exact h.2.2
    exact hfinish (.deadIdle hresp)
      (returned_part hv hpart ((List.prefix_append got s.resp).trans hpre))

/-! The steps of the sandbox parent and of its child. -/

theorem inv_parentRead {req : List UInt8} (hp : s.parent = .reading got)
    (hreq : s.req = bs ++ req) : Inv { s with parent := .reading (got ++ bs), req := req } := by
  have hphase := hinv.phase
  rw [hp] at hphase
  refine hinv.of_phase rfl rfl rfl rfl ?_
  show InStep _ s.caller (.reading (got ++ bs))
  generalize s.caller = caller at hphase
  -- there is nothing to read but the request at hand
  have hnil : s.req = [] → bs = [] ∧ req = [] := fun h =>
    List.append_eq_nil_iff.mp (hreq.symm.trans h)
  cases hphase with
  | idle hserved hnone hresp =>
    obtain ⟨rfl, rfl⟩ := hnil hnone
    exact .idle hserved rfl hresp
  | sending hrest h =>
    obtain ⟨⟨r, bytes, hr, henc, hall⟩, hserved, hresp, hheard⟩ := h
    rw [hreq] at hall
    exact .sending hrest ⟨⟨r, bytes, hr, henc, by simpa using hall⟩, hserved, hresp, hheard⟩
  | sent h =>
    obtain ⟨⟨r, bytes, hr, henc, hall⟩, hserved, hresp, hheard⟩ := h
    rw [hreq] at hall
    exact .sent ⟨⟨r, bytes, hr, henc, by simpa using hall⟩, hserved, hresp, hheard⟩
  | answered hserved hnone hpart hv h =>
    obtain ⟨rfl, rfl⟩ := hnil hnone
    exact .answered hserved rfl hpart hv h

theorem inv_parentDecodes {buffer : List UInt8} (hp : s.parent = .reading buffer)
    (hlen : buffer.length = 512) :
    Inv { s with parent := .serving (decode buffer), served := s.served + 1 } := by
  have hphase := hinv.phase
  rw [hp] at hphase
  have hforks : ∀ f ∈ s.forks, f.request + 1 < s.served + 1 := fun f hf =>
    Nat.succ_lt_succ (hinv.forks f hf).1
  obtain ⟨hc, h⟩ : s.caller = .reading [] ∧ Sending s.toWire buffer [] := by
    generalize s.caller = caller at hphase
    cases hphase with
    | idle | answered => cases hlen
    | sending hrest h =>
      obtain ⟨⟨r, bytes, hr, henc, hall⟩, -, -, -⟩ := h
      have htotal := congrArg List.length hall
      have hpos := List.length_pos_iff.mpr hrest
      simp only [List.length_append, length_encode henc] at htotal
      omega
    | sent h => exact ⟨rfl, h⟩
  obtain ⟨⟨r, bytes, hr, henc, hall⟩, hserved, hresp, hheard⟩ := h
  have hreq : s.req = [] := by
    have htotal := congrArg List.length hall
    simp only [List.length_append, length_encode henc, List.length_nil] at htotal
    exact List.length_eq_zero_iff.mp (by omega)
  have hbuffer : buffer = bytes := by simpa [hreq] using hall
  refine ⟨?_, Nat.le_of_eq hserved, ?_, hinv.ordered, hinv.returns⟩
  · show InStep _ s.caller (.serving (decode buffer))
    rw [hc]
    exact .serving ⟨⟨r, bytes, hr, henc, by rw [hbuffer]⟩, hserved, hreq, hresp, hheard⟩ hforks
  · intro f hf
    obtain ⟨hlt, hrest⟩ := hinv.forks f hf
    exact ⟨Nat.lt_succ_of_lt hlt, hrest⟩

theorem inv_parentHeard (hp : s.parent = .waiting r child pipe got) :
    Inv { s with
      parent := .answering (pidBytes (pidOf (field 4 got))), heard := got.length } := by
  have hphase := hinv.phase
  rw [hp] at hphase
  refine hinv.of_phase rfl rfl rfl rfl ?_
  show InStep _ s.caller (.answering (pidBytes (pidOf (field 4 got))))
  generalize s.caller = caller at hphase
  cases hphase with
  | waiting h hword =>
    obtain ⟨v, hv, hval, hpart⟩ := hword.part hinv
    rw [h.served] at hpart
    have hbytes : pidBytes (pidOf (field 4 got)) = toLeBytes 4 v := by
      rw [hval, pidBytes_natCast hv]
    refine .answering ?_ h.served h.req hpart hv ?_
    · rw [hbytes]
      exact List.ne_nil_of_length_eq_add_one (length_toLeBytes 4 v)
    · simp [h.resp, hbytes]

theorem inv_parentWrites {rest : List UInt8} (hp : s.parent = .answering (bs ++ rest)) :
    Inv { s with parent := .answer rest, resp := s.resp ++ bs } := by
  have hphase := hinv.phase
  rw [hp] at hphase
  refine hinv.of_phase rfl rfl rfl rfl ?_
  show InStep _ s.caller (.answer rest)
  generalize s.caller = caller at hphase
  cases hphase with
  | answering hrest hserved hreq hpart hv h =>
    cases rest with
    | nil => exact .answered hserved hreq hpart hv (by simpa using h)
    | cons b rest => exact .answering (by simp) hserved hreq hpart hv (by simpa using h)

/-- Whatever the sandbox parent was doing, a part of an answer is all that a call can get. -/
theorem inv_parentDies : Inv { s with parent := s.parent.die } := by
  have hphase := hinv.phase
  refine hinv.of_phase rfl rfl rfl rfl ?_
  show InStep s.toWire s.caller s.parent.die
  generalize s.caller = caller at hphase
  generalize s.parent = parent at hphase
  cases hphase with
  | idle _ _ hresp | deadIdle hresp => exact .deadIdle hresp
  | sending _ h => exact .deadWriting h.resp h.heard
  | sent h | serving h => exact inStep_dead h.heard h.resp
  | @waiting _ child _ _ h hword =>
    cases child with
    | starting => exact .orphaned h fun _ => hword.2
    | writing => exact .orphaned h nofun
    | gone => exact inStep_dead h.heard h.resp
  | orphaned h hno => exact .orphaned h hno
  | answering _ _ _ hpart hv h => exact .deadReading hpart hv ⟨_, h⟩
  | answered _ _ hpart hv h => exact .deadReading hpart hv ⟨[], by simpa using h⟩
  | deadWriting hresp hheard => exact .deadWriting hresp hheard
  | deadReading hpart hv h => exact .deadReading hpart hv h

theorem inv_waiting {child' : Child} {pipe' got' : List UInt8}
    (hp : s.parent = .waiting r child pipe got)
    (hword : Says s.toWire (got ++ pipe) child → Says s.toWire (got' ++ pipe') child') :
    Inv { s with parent := .waiting r child' pipe' got' } := by
  have hphase := hinv.phase
  rw [hp] at hphase
  refine hinv.of_phase rfl rfl rfl rfl ?_
  show InStep s.toWire s.caller (.waiting r child' pipe' got')
  generalize s.caller = caller at hphase
  cases hphase with
  | waiting h hs => exact .waiting h (hword hs)

/-- The sandbox process of the request at hand is forked, by a child or one that is left over. -/
theorem inv_fork {pid : ℕ} {parent : Parent} (hc : s.caller = .reading [])
    (h : Serving s.toWire r) (hno : ∀ f ∈ s.forks, f.request + 1 < s.served) (hpos : 0 < pid)
    (hlt : pid < 2 ^ 31)
    (hphase : Serving (s.fork r pid parent).toWire r →
      (⟨s.served - 1, r, pid⟩ : Fork).request + 1 = s.served →
      InStep (s.fork r pid parent).toWire (.reading []) parent) :
    Inv (s.fork r pid parent) := by
  obtain ⟨⟨r', bytes, hr', henc, hdecode⟩, hserved, hreq, hresp, hheard⟩ := h
  have hlast : s.sent[s.served - 1]? = some r' := by
    rw [hserved, ← List.getLast?_eq_getElem?]
    exact hr'
  have hserved' : 0 < s.served := by
    have := (List.getElem?_eq_some_iff.mp hlast).1
    omega
  refine ⟨?_, hinv.served, ?_, ?_, ?_⟩
  · show InStep _ s.caller parent
    rw [hc]
    exact hphase ⟨⟨r', bytes, hr', henc, hdecode⟩, hserved, hreq, hresp, hheard⟩
      (Nat.sub_add_cancel hserved')
  · intro f hf
    rcases List.mem_append.mp hf with hf | hf
    · exact hinv.forks f hf
    · rw [List.mem_singleton] at hf
      subst hf
      exact ⟨Nat.sub_lt hserved' (by omega), hpos, hlt, r', bytes, hlast, henc, hdecode⟩
  · refine List.pairwise_append.mpr ⟨hinv.ordered, List.pairwise_singleton _ _, ?_⟩
    intro f hf g hg
    rw [List.mem_singleton] at hg
    subst hg
    exact Nat.lt_sub_of_add_lt (hno f hf)
  · intro ret hret p hok
    obtain ⟨v, hv, hpart⟩ := hinv.returns ret hret p hok
    exact ⟨v, hv, hpart.mono fun f hf => List.mem_append_left _ hf⟩

theorem inv_childForks {pid : ℕ} (hp : s.parent = .waiting r .starting pipe got) (hpos : 0 < pid)
    (hlt : pid < 2 ^ 31) : Inv (s.fork r pid (.waiting r (.writing (pidBytes pid)) pipe got)) := by
  have hphase := hinv.phase
  rw [hp] at hphase
  obtain ⟨hc, h, hnil, hno⟩ : s.caller = .reading [] ∧ Serving s.toWire r ∧ got ++ pipe = [] ∧
      ∀ f ∈ s.forks, f.request + 1 < s.served := by
    generalize s.caller = caller at hphase
    cases hphase with
    | waiting h hword => exact ⟨rfl, h, hword⟩
  refine inv_fork hinv hc h hno hpos hlt fun h' hlast => .waiting h' ?_
  refine ⟨⟨s.served - 1, r, pid⟩, by simp [State.fork], hlast, ?_⟩
  rw [hnil, List.nil_append, pidBytes_natCast hlt]

theorem inv_orphanForks {pid : ℕ} (hp : s.parent = .orphan r false) (hpos : 0 < pid)
    (hlt : pid < 2 ^ 31) : Inv (s.fork r pid (.orphan r true)) := by
  have hphase := hinv.phase
  rw [hp] at hphase
  obtain ⟨hc, h, hno⟩ : s.caller = .reading [] ∧ Serving s.toWire r ∧
      ∀ f ∈ s.forks, f.request + 1 < s.served := by
    generalize s.caller = caller at hphase
    cases hphase with
    | orphaned h hno => exact ⟨rfl, h, hno rfl⟩
  exact inv_fork hinv hc h hno hpos hlt fun h' _ => .orphaned h' nofun

end

theorem inv_step (hok : Sound l s) (hstep : Step l s s') (hinv : Inv s) : Inv s' := by
  cases hstep with
  | call hc henc => exact inv_call hinv hc henc
  | write hc => exact inv_write hinv hc
  | writeFails hc =>
    have hphase := hinv.phase
    have hdead : s.parent = .dead := hok
    rw [hc, hdead] at hphase
    cases hphase with
    | deadWriting hresp =>
      apply hinv.finish
      · rw [hdead]
        exact .deadIdle hresp
      · exact fun _ h => nomatch h
  | read hc hresp => exact inv_read hinv hc hresp
  | returned hc h => exact inv_returned hinv hc h
  | readFails => exact hok.elim
  | parentRead hp hreq => exact inv_parentRead hinv hp hreq
  | parentDecodes hp hlen => exact inv_parentDecodes hinv hp hlen
  | @parentForks _ r hp =>
    have hphase := hinv.phase
    rw [hp] at hphase
    refine hinv.of_phase rfl rfl rfl rfl ?_
    show InStep s.toWire s.caller (.waiting r .starting [] [])
    generalize s.caller = caller at hphase
    cases hphase with
    | serving h hno => exact .waiting h ⟨rfl, hno⟩
  | parentHears hp =>
    apply inv_waiting hinv hp
    rw [List.append_assoc]
    exact id
  | parentHeard hp => exact inv_parentHeard hinv hp
  | parentWrites hp => exact inv_parentWrites hinv hp
  | parentDies => exact inv_parentDies hinv
  | childForks hp hpos hlt => exact inv_childForks hinv hp hpos hlt
  | childWrites hp =>
    apply inv_waiting hinv hp
    rintro ⟨f, hf, hreq, hall⟩
    exact ⟨f, hf, hreq, by simpa using hall⟩
  | @childDies _ _ child _ _ hp =>
    apply inv_waiting hinv hp
    intro hword
    cases child with
    | starting => exact Or.inl hword.1
    | writing rest =>
      obtain ⟨f, hf, hreq, hall⟩ := hword
      exact Or.inr ⟨f, hf, hreq, rest, hall⟩
    | gone => exact hword
  | orphanForks hp hpos hlt => exact inv_orphanForks hinv hp hpos hlt
  | orphanDies hp =>
    have hphase := hinv.phase
    rw [hp] at hphase
    refine hinv.of_phase rfl rfl rfl rfl ?_
    show InStep s.toWire s.caller .dead
    generalize s.caller = caller at hphase
    cases hphase with
    | orphaned h => exact inStep_dead h.heard h.resp
  | sandboxDies => exact hinv.of_phase rfl rfl rfl rfl hinv.phase

/-- The invariant holds over any sequence of calls, whichever process dies at whichever point. -/
theorem reachable_inv (h : Reachable (· = {}) (Guarded Sound Step) s) : Inv s := by
  refine h.guarded_invariant ?_ ?_
  · rintro s rfl
    exact inv_init
  · exact fun l s s' hok hstep hinv => inv_step hok hstep hinv

end Kuasar.Runc

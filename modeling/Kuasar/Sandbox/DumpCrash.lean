import Mathlib.Data.List.Nodup
import Kuasar.Data.Json

/-!
# Sandbox.DumpCrash — a dump that is cut short

A sandboxer keeps each sandbox as `sandbox.json` in a directory of its own. `dump` opens the file
and truncates it, then writes the new text into it. After a crash `recover` goes over the
directories; one whose file does not parse is removed.

The crash may come between any two system calls of a dump, so `recover` meets the old text, or some
part of the new one, the empty part included. A part that is not all of it does not parse:
`found_after_crash_iff` says at which points of a dump a crash leaves the sandbox to be found. The
two sandboxers differ in what `recover` does after the text was parsed: the one for VMs attaches to
the VM again.
-/

namespace Kuasar.DumpCrash

variable {σ : Type}

/-! ## What the sandboxers rely on -/

/-- `serde_json`, at the record of a sandbox that a dump holds. -/
structure Serde (σ : Type) where
  toVec : σ → Option (List UInt8)
  fromSlice : List UInt8 → Option σ

/-- What was written is read back, and the text of an object is no object when it is cut. -/
structure Serde.Lawful (j : Serde σ) : Prop where
  roundTrip : ∀ {sb bytes}, j.toVec sb = some bytes → j.fromSlice bytes = some sb
  cut : ∀ {sb bytes part}, j.toVec sb = some bytes → part <+: bytes → part ≠ bytes →
    j.fromSlice part = none

/-- How the steps of a recovery beyond the text go for one sandbox of the VM sandboxer. -/
structure Host where
  vmRecover : Bool
  initClient : Bool
  cgroups : Bool

inductive Sandboxer where
  | vmm (host : String → Host)
  | runc

/-- `running` is read off the status in the record; `removes` says whether `remove_dir_all`, whose
error is ignored, removes the directory. -/
structure Env (σ : Type) where
  serde : Serde σ
  running : σ → Bool
  removes : String → Bool

/-! ## Dumps -/

/-- A system call on `sandbox.json`. -/
inductive FileCall where
  | openTruncate
  | write (bytes : List UInt8)

def FileCall.apply : Option (List UInt8) → FileCall → Option (List UInt8)
  | _, .openTruncate => some []
  | file, .write bytes => file.map (· ++ bytes)

/-- The calls of `dump` that reach the file. `write_all` makes as many as it needs. -/
inductive Dump (j : Serde σ) (sb : σ) : List FileCall → Prop where
  | notSerialized (h : j.toVec sb = none) : Dump j sb []
  -- an error for runc; for vmm not one if there is no such directory
  | notOpened : Dump j sb []
  | written {bytes} {chunks : List (List UInt8)} (h : j.toVec sb = some bytes)
      (hchunks : chunks.flatten = bytes) : Dump j sb (.openTruncate :: chunks.map .write)

/-- What the calls write. -/
def writtenBy (calls : List FileCall) : List UInt8 :=
  calls.flatMap fun
    | .openTruncate => []
    | .write bytes => bytes

/-! ## Recovery -/

/-- An entry of the working directory; `dump` is the `sandbox.json` in it. -/
structure Entry where
  name : String
  isDir : Bool
  dump : Option (List UInt8)

/-- What `recover` does with a sandbox whose text was parsed. -/
def Sandboxer.resume (env : Env σ) (name : String) (sb : σ) : Sandboxer → Option σ
  | .runc => some sb
  | .vmm host =>
    if env.running sb && !((host name).vmRecover && (host name).initClient) then none
    else if (host name).cgroups then some sb
    else none

/-- `KuasarSandbox::recover` and `RuncSandbox::recover`. -/
def Sandboxer.recoverSandbox (env : Env σ) (k : Sandboxer) (e : Entry) : Option σ := do
  let content ← e.dump
  let sb ← env.serde.fromSlice content
  k.resume env e.name sb

/-- The sandboxes that are known again, and the entries that are left. -/
structure Recovered (σ : Type) where
  sandboxes : List (String × σ)
  entries : List Entry

/-- One turn of the loop of `recover`. -/
def recoverEntry (env : Env σ) (k : Sandboxer) (r : Recovered σ) (e : Entry) : Recovered σ :=
  if e.isDir then
    match k.recoverSandbox env e with
    | some sb => ⟨r.sandboxes ++ [(e.name, sb)], r.entries ++ [e]⟩
    | none => if env.removes e.name then r else { r with entries := r.entries ++ [e] }
  else { r with entries := r.entries ++ [e] }

/-- `KuasarSandboxer::recover` and `RuncSandboxer::recover`. -/
def recover (env : Env σ) (k : Sandboxer) (dir : List Entry) : Recovered σ :=
  dir.foldl (recoverEntry env k) ⟨[], []⟩

/-- The sandbox of the entry is known again, with this record, and has its directory. -/
def Found (r : Recovered σ) (e : Entry) (sb : σ) : Prop :=
  (e.name, sb) ∈ r.sandboxes ∧ e ∈ r.entries

/-- The entry when the process crashes after these calls of a dump. -/
def Entry.after (e : Entry) (calls : List FileCall) : Entry :=
  { e with dump := calls.foldl FileCall.apply e.dump }

/-! ## The file after a crash -/

theorem foldl_write (chunks : List (List UInt8)) (file : List UInt8) :
    (chunks.map FileCall.write).foldl FileCall.apply (some file) =
      some (file ++ chunks.flatten) := by
  induction chunks generalizing file with
  | nil => simp
  | cons c chunks ih =>
    rw [List.map_cons, List.foldl_cons, FileCall.apply, Option.map_some, ih, List.flatten_cons,
      List.append_assoc]

theorem writtenBy_writes (chunks : List (List UInt8)) :
    writtenBy (.openTruncate :: chunks.map .write) = chunks.flatten := by
  rw [writtenBy, List.flatMap_cons, List.nil_append, List.flatMap_map, List.flatMap_id']

variable {sb : σ} {env : Env σ} {k : Sandboxer} {e : Entry}

/-- A dump that has begun leaves what it wrote, which is a part of the new text. -/
theorem Dump.cut {j : Serde σ} {calls : List FileCall} (hdump : Dump j sb calls) (n : ℕ)
    (hn : calls.take n ≠ []) (e : Entry) :
    (e.after (calls.take n)).dump = some (writtenBy (calls.take n)) ∧
      ∃ bytes, j.toVec sb = some bytes ∧ writtenBy (calls.take n) <+: bytes := by
  cases hdump with
  | notSerialized h | notOpened => exact absurd List.take_nil hn
  | @written bytes chunks h hchunks =>
    cases n with
    | zero => exact absurd rfl hn
    | succ n =>
      rw [List.take_succ_cons, ← List.map_take, writtenBy_writes]
      refine ⟨?_, bytes, h, ?_⟩
      · rw [Entry.after, List.foldl_cons, FileCall.apply, foldl_write, List.nil_append]
      · rw [← hchunks]
        exact ⟨(chunks.drop n).flatten, by rw [← List.flatten_append, List.take_append_drop]⟩

/-! ## The loop of recovery -/

def known (env : Env σ) (k : Sandboxer) (e : Entry) : Option (String × σ) :=
  if e.isDir then (k.recoverSandbox env e).map (e.name, ·) else none

/-- Whether the loop leaves an entry. -/
def left (env : Env σ) (k : Sandboxer) (e : Entry) : Bool :=
  !e.isDir || (k.recoverSandbox env e).isSome || !env.removes e.name

theorem recoverEntry_eq (env : Env σ) (k : Sandboxer) (r : Recovered σ) (e : Entry) :
    recoverEntry env k r e =
      ⟨r.sandboxes ++ [e].filterMap (known env k), r.entries ++ [e].filter (left env k)⟩ := by
  unfold recoverEntry
  split
  · rename_i hdir
    split
    · rename_i sb hsb
      simp [known, left, hdir, hsb]
    · rename_i hsb
      cases hrem : env.removes e.name <;> simp [known, left, hdir, hsb, hrem]
  · rename_i hdir
    simp [known, left, hdir]

theorem foldl_recoverEntry (env : Env σ) (k : Sandboxer) (dir : List Entry) (r : Recovered σ) :
    dir.foldl (recoverEntry env k) r =
      ⟨r.sandboxes ++ dir.filterMap (known env k), r.entries ++ dir.filter (left env k)⟩ := by
  induction dir generalizing r with
  | nil => simp
  | cons e dir ih =>
    rw [List.foldl_cons, ih, recoverEntry_eq]
    simp only [List.append_assoc, ← List.filterMap_append, ← List.filter_append,
      List.singleton_append]

/-- An entry with a name of its own is found as what it is recovered to. -/
theorem found_iff {dir : List Entry} (hnames : (dir.map (·.name)).Nodup) (he : e ∈ dir)
    (hdir : e.isDir = true) :
    Found (recover env k dir) e sb ↔ k.recoverSandbox env e = some sb := by
  unfold Found recover
  rw [foldl_recoverEntry, List.nil_append, List.nil_append, List.mem_filterMap]
  constructor
  · rintro ⟨⟨e', he', hknown⟩, -⟩
    unfold known at hknown
    split at hknown
    · obtain ⟨sb', hsb', heq⟩ := Option.map_eq_some_iff.mp hknown
      obtain ⟨hname, rfl⟩ := Prod.mk.inj heq
      rwa [List.inj_on_of_nodup_map hnames he' he hname] at hsb'
    · cases hknown
  · intro h
    refine ⟨⟨e, he, ?_⟩, List.mem_filter.mpr ⟨he, ?_⟩⟩
    · rw [known, if_pos hdir, h, Option.map_some]
    · rw [left, h]
      simp

/-! ## Recovery after a crash -/

/-- The record is attached to unchanged, if at all. -/
theorem resume_eq {name : String} {sb' : σ} (h : k.resume env name sb = some sb') : sb' = sb := by
  cases k with
  | runc => exact (Option.some.inj h).symm
  | vmm host =>
    rw [Sandboxer.resume] at h
    split at h
    · cases h
    · split at h
      · exact (Option.some.inj h).symm
      · cases h

/-- The crash came before the file was truncated, or after all of the new text was written; and the
sandbox that the file then holds can be attached to. -/
def Intact (env : Env σ) (k : Sandboxer) (name : String) (prev new : σ) (calls : List FileCall) :
    Prop :=
  if calls = [] then (k.resume env name prev).isSome = true
  else env.serde.toVec new = some (writtenBy calls) ∧ (k.resume env name new).isSome = true

/-- From a text that parses, the sandbox is recovered as it can be attached to. -/
theorem recoverSandbox_parsed {bytes : List UInt8} {sb' : σ} (hdump : e.dump = some bytes)
    (hparse : env.serde.fromSlice bytes = some sb) :
    k.recoverSandbox env e = some sb' ↔ sb' = sb ∧ (k.resume env e.name sb).isSome = true := by
  have heq : k.recoverSandbox env e = k.resume env e.name sb := by
    simp [Sandboxer.recoverSandbox, hdump, hparse]
  rw [heq]
  constructor
  · intro h
    exact ⟨resume_eq h, by rw [h]; rfl⟩
  · rintro ⟨rfl, h⟩
    obtain ⟨sb, hsb⟩ := Option.isSome_iff_exists.mp h
    rw [hsb, resume_eq hsb]

/-- A text that does not parse. -/
theorem recoverSandbox_unparsed {bytes : List UInt8} (hdump : e.dump = some bytes)
    (hparse : env.serde.fromSlice bytes = none) : k.recoverSandbox env e = none := by
  simp [Sandboxer.recoverSandbox, hdump, hparse]

/-- In every working directory, for every sandbox with a dump of `prev`, every later dump of `new`
and every number of its calls after which the process crashes: the sandbox is found as `prev` or as
`new` if and only if the dump had not begun or all of it was written. -/
theorem found_after_crash_iff (env : Env σ) (hlaw : env.serde.Lawful) (k : Sandboxer)
    {dir₁ dir₂ : List Entry} {e : Entry} {prev new : σ} {bytes : List UInt8}
    {calls : List FileCall} (hnames : ((dir₁ ++ e :: dir₂).map (·.name)).Nodup)
    (hdir : e.isDir = true) (hprev : env.serde.toVec prev = some bytes)
    (hdumped : e.dump = some bytes) (hdump : Dump env.serde new calls) (n : ℕ) :
    (∃ sb, (sb = prev ∨ sb = new) ∧
      Found (recover env k (dir₁ ++ e.after (calls.take n) :: dir₂)) (e.after (calls.take n)) sb) ↔
      Intact env k e.name prev new (calls.take n) := by
  have hfound : ∀ sb,
      Found (recover env k (dir₁ ++ e.after (calls.take n) :: dir₂)) (e.after (calls.take n)) sb ↔
        k.recoverSandbox env (e.after (calls.take n)) = some sb := by
    intro sb
    refine found_iff ?_ (List.mem_append_right _ List.mem_cons_self) hdir
    simpa [Entry.after] using hnames
  simp only [hfound]
  unfold Intact
  split
  · -- the crash came before the file was opened
    rename_i hnil
    have hfile : (e.after (calls.take n)).dump = some bytes := by rw [hnil]; exact hdumped
    simp only [recoverSandbox_parsed hfile (hlaw.roundTrip hprev)]
    constructor
    · rintro ⟨sb, -, rfl, h⟩
      exact h
    · intro h
      exact ⟨prev, .inl rfl, rfl, h⟩
  · rename_i hne
    obtain ⟨hfile, text, htext, hpre⟩ := hdump.cut n hne e
    by_cases hall : writtenBy (calls.take n) = text
    · -- all of the new text is there
      rw [hall] at hfile
      simp only [recoverSandbox_parsed hfile (hlaw.roundTrip htext), htext, hall]
      constructor
      · rintro ⟨sb, -, rfl, h⟩
        exact ⟨trivial, h⟩
      · rintro ⟨-, h⟩
        exact ⟨new, .inr rfl, rfl, h⟩
    · -- a part of it, which does not parse
      simp only [recoverSandbox_unparsed hfile (hlaw.cut htext hpre hall)]
      constructor
      · rintro ⟨sb, -, h⟩
        cases h
      · rintro ⟨h, -⟩
        rw [htext] at h
        exact absurd (Option.some.inj h).symm hall

/-! ## A dump of one flag -/

/-- A record that says whether the sandbox runs. -/
def flagText (running : Bool) : List UInt8 :=
  Json.text (if running then "\x7b\"running\":1\x7d" else "\x7b\"running\":0\x7d")

def flagSerde : Serde Bool where
  toVec running := some (flagText running)
  fromSlice bytes :=
    if bytes = flagText true then some true
    else if bytes = flagText false then some false
    else none

theorem flagSerde_lawful : flagSerde.Lawful := by
  constructor
  · intro sb bytes h
    obtain rfl : flagText sb = bytes := Option.some.inj h
    cases sb <;> decide
  · intro sb bytes part h hpre hne
    obtain rfl : flagText sb = bytes := Option.some.inj h
    -- both texts have the same length, and a part is shorter
    have hlen : part.length < (flagText sb).length :=
      Nat.lt_of_le_of_ne hpre.length_le fun heq => hne (hpre.eq_of_length heq)
    have hsame : ∀ b, part ≠ flagText b := by
      rintro b rfl
      revert hlen
      cases b <;> cases sb <;> decide
    simp [flagSerde, hsame]

def flagEnv : Env Bool := ⟨flagSerde, id, fun _ => true⟩

/-- A sandbox that was dumped before it was started. -/
def idle : Entry := ⟨"sb", true, some (flagText false)⟩

def startedDump : List FileCall := .openTruncate :: [flagText true].map .write

theorem startedDump_dump : Dump flagSerde true startedDump := .written rfl (List.append_nil _)

/-- The crash comes after the dump: the sandbox is found as started. -/
theorem found_after_whole_dump :
    ∃ sb, (sb = false ∨ sb = true) ∧
      Found (recover flagEnv .runc ([] ++ idle.after (startedDump.take 2) :: []))
        (idle.after (startedDump.take 2)) sb :=
  (found_after_crash_iff flagEnv flagSerde_lawful .runc (by decide) rfl rfl rfl startedDump_dump
    2).mpr ⟨by decide, by decide⟩

/-- The crash comes when the file was truncated and nothing written: no sandboxer finds the
sandbox, and its directory is removed. -/
theorem truncated_dump_loses_sandbox :
    flagSerde.toVec false = idle.dump ∧ Dump flagSerde true startedDump ∧
      ∀ k : Sandboxer, recover flagEnv k [idle.after (startedDump.take 1)] = ⟨[], []⟩ := by
  refine ⟨rfl, startedDump_dump, ?_⟩
  intro k
  have hnone : k.recoverSandbox flagEnv (idle.after (startedDump.take 1)) = none :=
    recoverSandbox_unparsed rfl (by decide : flagSerde.fromSlice [] = none)
  rw [recover, List.foldl_cons, List.foldl_nil, recoverEntry, hnone]
  rfl

end Kuasar.DumpCrash

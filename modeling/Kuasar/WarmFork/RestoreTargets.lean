import Mathlib.Data.List.DropRight
import Kuasar.Data.Assoc
import Kuasar.Sandbox.StartBalance
import Kuasar.WarmFork.InjectHost

/-!
# WarmFork.RestoreTargets — what a WarmFork restore injects into which container

The annotations of a pod list the containers that a WarmFork restore injects its task into,
with a socket, a context and environment variables for the whole pod and for single
containers. A restore makes one target of each name and gets the container's id from the
template.

`restore_targets_exact` says what the targets are. Two things are not as the annotations
have it: if the template has recorded no targets, the ids are empty; and a name that goes on
with `/task-env/` after another makes a variable of one container one of the other.
-/

namespace Kuasar.WarmFork

open TemplateStart

structure AnnotationMap where
  entries : List (String × String)
  nodup : (entries.map Prod.fst).Nodup

def AnnotationMap.get (a : AnnotationMap) (key : String) : Option String := a.entries.lookup key

def warmForkContainersAnnotation : String := "kuasar.io/warm-fork-containers"
def taskIdAnnotation : String := "kuasar.io/task-id"
def readinessSocketAnnotation : String := "kuasar.io/warm-fork-readiness-socket"
def taskContextAnnotation : String := "kuasar.io/task-context"
def defaultReadinessSocket : String := "/run/warmfork-readiness.sock"

def podEnvKey (variableName : String) : String := "kuasar.io/task-env/" ++ variableName

def containerKey (name rest : String) : String := "kuasar.io/container/" ++ name ++ rest

/-- The annotation of an environment variable of a container. -/
def containerEnvKey (name variableName : String) : String :=
  containerKey name "/task-env/" ++ variableName

/-! ## The names -/

inductive NamesError where
  | empty (value : String)
  | duplicate (name : String)
  deriving DecidableEq, Repr

/-- The characters with the property `White_Space`. -/
def isWhiteSpace (c : Char) : Bool :=
  (9 ≤ c.toNat && c.toNat ≤ 13) || (0x2000 ≤ c.toNat && c.toNat ≤ 0x200a) ||
    [0x20, 0x85, 0xa0, 0x1680, 0x2028, 0x2029, 0x202f, 0x205f, 0x3000].contains c.toNat

/-- `str::trim`. -/
def trim (chars : List Char) : String :=
  .ofList ((chars.dropWhile isWhiteSpace).rdropWhile isWhiteSpace)

def listedNames (value : String) : List String := (value.toList.splitOn ',').map trim

/-- The loop of `parse_warm_fork_container_names`, with the names so far. -/
def collectNames (value : String) : List String → List String → Except NamesError (List String)
  | names, [] => .ok names
  | names, name :: rest =>
    if name = "" then .error (.empty value)
    else if names.contains name then .error (.duplicate name)
    else collectNames value (names ++ [name]) rest

/-- `parse_warm_fork_container_names`. What is split has at least one part, so that there is
no empty list to refuse. -/
def parseWarmForkContainerNames (a : AnnotationMap) : Except NamesError (Option (List String)) :=
  match a.get warmForkContainersAnnotation with
  | none => .ok none
  | some value => (collectNames value [] (listedNames value)).map some

/-! ## The targets -/

/-- `str::strip_prefix`. -/
def strip (front key : String) : Option String :=
  (front.toList.isPrefixOf? key.toList).map String.ofList

def podSocket (a : AnnotationMap) : String :=
  (a.get readinessSocketAnnotation).getD defaultReadinessSocket

def podContext (a : AnnotationMap) : String := (a.get taskContextAnnotation).getD ""

def podEnv (a : AnnotationMap) : List (String × String) :=
  Assoc.rename (strip (podEnvKey "")) a.entries

/-- The environment of a container: that of the pod, and over it the container's own. -/
def containerEnv (a : AnnotationMap) (name : String) : List (String × String) :=
  a.entries.foldl (fun env entry =>
    match strip (containerEnvKey name "") entry.1 with
    | some variableName => Assoc.set variableName entry.2 env
    | none => env) (podEnv a)

def listedTarget (a : AnnotationMap) (name : String) : Target where
  containerName := name
  containerId := ""
  socketPath := (a.get (containerKey name "/warm-fork-readiness-socket")).getD (podSocket a)
  envOverrides := containerEnv a name
  context := (a.get (containerKey name "/task-context")).getD (podContext a)

def soleTarget (a : AnnotationMap) : Target where
  containerName := ""
  containerId := ""
  socketPath := podSocket a
  envOverrides := podEnv a
  context := podContext a

/-- `parse_warm_fork_params`. -/
def parseWarmForkParams (a : AnnotationMap) : Except NamesError WarmForkParams :=
  match parseWarmForkContainerNames a with
  | .error e => .error e
  | .ok names =>
    .ok { taskId := (a.get taskIdAnnotation).filter (· ≠ "")
          targets := match names with
            | some names => names.map (listedTarget a)
            | none => [soleTarget a] }

/-- The id that the template has for the container. -/
def overlay (t : PooledTemplate) (target : Target) : Target :=
  match t.warmForkTargets.find? (·.containerName = target.containerName) with
  | some recorded => { target with containerId := recorded.containerId }
  | none => target

/-! ## The restore -/

/-- What `restore_from_warm_fork_template` does before it starts the VM: the parameters of
the injection, or why the restore is refused. -/
def warmForkParams (snapshotFiles : Bool) (t : PooledTemplate) (a : AnnotationMap) :
    Except TemplateStart.StartError WarmForkParams :=
  if t.readyProtocolVersion.isNone then .error .noReadyProtocol
  else if !snapshotFiles then .error .snapshotFilesMissing
  else
    match parseWarmForkParams a with
    | .error _ => .error .invalidAnnotations
    | .ok params =>
      if !t.warmForkTargets.isEmpty &&
          !sameNames (t.warmForkTargets.map (·.containerName))
            (params.targets.map (·.containerName)) then .error .containerSetMismatch
      else .ok { params with targets := params.targets.map (overlay t) }

/-- The names of the targets that the parameters have, if there are any. -/
def parsedNames (a : AnnotationMap) : Option (List String) :=
  match parseWarmForkParams a with
  | .error _ => none
  | .ok params => some (params.targets.map (·.containerName))

variable {a : AnnotationMap} {t : PooledTemplate}

/-- The restore of `TemplateStart` is refused with the lease given back, or goes on to the VM,
as the parameters are. -/
theorem restoreFromWarmForkTemplate_eq (cfg : Config) (o : TemplateStart.Outcomes)
    (before : RestoreMetadata) (p : TemplatePool) (t : PooledTemplate) (mode : TemplateLeaseMode)
    (a : AnnotationMap) :
    restoreFromWarmForkTemplate cfg { o with annotations := parsedNames a } before p t mode =
      match warmForkParams o.snapshotFiles t a with
      | .error e => (p.leaseFail o.removed t, .error e)
      | .ok _ =>
        endLease o t (startFromSnapshot cfg { o with annotations := parsedNames a } before p t
          mode) := by
  unfold restoreFromWarmForkTemplate warmForkParams parsedNames
  dsimp only
  split
  · rfl
  split
  · rfl
  cases parseWarmForkParams a with
  | error e => rfl
  | ok params =>
    dsimp only
    split
    · rfl
    · rfl

/-! ## What is asked for -/

def targetNames (a : AnnotationMap) : List String :=
  match a.get warmForkContainersAnnotation with
  | none => [""]
  | some value => listedNames value

/-- What the annotations have for a listed container; a pod that lists none has nothing. -/
def ownValue (a : AnnotationMap) (name rest : String) : Option String :=
  match a.get warmForkContainersAnnotation with
  | none => none
  | some _ => a.get (containerKey name rest)

/-- The task is the one that the annotations ask for: the socket and the context of the
container or else of the pod, and the variables of the pod, and over them the container's. -/
structure Asked (a : AnnotationMap) (name : String) (task : ContainerTask) : Prop where
  socket : task.socketPath =
    (ownValue a name "/warm-fork-readiness-socket").getD (podSocket a)
  context : task.context = (ownValue a name "/task-context").getD (podContext a)
  env : ∀ variableName, task.envOverrides.lookup variableName =
    (ownValue a name ("/task-env/" ++ variableName)).or (a.get (podEnvKey variableName))

/-- The task is for the container that the template has recorded under the name. -/
def Recorded (t : PooledTemplate) (name : String) (task : ContainerTask) : Prop :=
  (t.warmForkTargets.find? (·.containerName = name)).map (·.containerId) = some task.containerId

/-! ## The names -/

theorem collectNames_ok {value : String} {names rest result : List String}
    (h : collectNames value names rest = .ok result) (hnames : names.Nodup) :
    result = names ++ rest ∧ result.Nodup := by
  induction rest generalizing names with
  | nil =>
    cases h
    exact ⟨(List.append_nil _).symm, hnames⟩
  | cons name rest ih =>
    unfold collectNames at h
    split at h
    · cases h
    split at h
    · cases h
    · rename_i hfresh
      have hfresh : name ∉ names := by simpa using hfresh
      obtain ⟨hresult, hnodup⟩ := ih h (List.nodup_append.mpr
        ⟨hnames, List.nodup_singleton _, by
          rintro x hx y hy rfl
          exact hfresh (List.mem_singleton.mp hy ▸ hx)⟩)
      rw [List.append_assoc] at hresult
      exact ⟨hresult, hnodup⟩

def targetOf (a : AnnotationMap) (name : String) : Target :=
  match a.get warmForkContainersAnnotation with
  | none => soleTarget a
  | some _ => listedTarget a name

theorem parseWarmForkParams_ok {params : WarmForkParams}
    (h : parseWarmForkParams a = .ok params) :
    params.targets = (targetNames a).map (targetOf a) ∧ (targetNames a).Nodup := by
  unfold parseWarmForkParams parseWarmForkContainerNames at h
  unfold targetNames
  cases hvalue : a.get warmForkContainersAnnotation with
  | none =>
    rw [hvalue] at h
    cases h
    refine ⟨?_, List.nodup_singleton _⟩
    simp [targetOf, hvalue]
  | some value =>
    rw [hvalue] at h
    dsimp only at h
    cases hnames : collectNames value [] (listedNames value) with
    | error e =>
      rw [hnames] at h
      cases h
    | ok names =>
      rw [hnames] at h
      cases h
      obtain ⟨hresult, hnodup⟩ := collectNames_ok hnames List.nodup_nil
      rw [List.nil_append] at hresult
      subst hresult
      refine ⟨?_, hnodup⟩
      have htarget : targetOf a = listedTarget a := by
        funext name
        simp [targetOf, hvalue]
      rw [htarget]

/-! ## The environment -/

theorem strip_eq_some_iff {front key rest : String} :
    strip front key = some rest ↔ key = front ++ rest := by
  unfold strip
  rw [Option.map_eq_some_iff]
  constructor
  · rintro ⟨chars, hchars, rfl⟩
    rw [List.isPrefixOf?_eq_some_iff_append_eq] at hchars
    rw [← String.toList_inj, ← hchars, String.toList_append, String.toList_ofList]
  · rintro rfl
    refine ⟨rest.toList, ?_, String.ofList_toList⟩
    rw [List.isPrefixOf?_eq_some_iff_append_eq, String.toList_append]

theorem podEnv_lookup (a : AnnotationMap) (variableName : String) :
    (podEnv a).lookup variableName = a.get (podEnvKey variableName) := by
  have hname : ∀ key rest, strip (podEnvKey "") key = some rest ↔ key = podEnvKey rest := by
    intro key rest
    rw [strip_eq_some_iff]
    unfold podEnvKey
    rw [String.append_empty]
  exact Assoc.lookup_rename hname a.entries variableName

theorem containerEnv_lookup (a : AnnotationMap) (name variableName : String) :
    (containerEnv a name).lookup variableName =
      (a.get (containerKey name ("/task-env/" ++ variableName))).or
        (a.get (podEnvKey variableName)) := by
  have hname : ∀ key rest, strip (containerEnvKey name "") key = some rest ↔
      key = containerEnvKey name rest := by
    intro key rest
    rw [strip_eq_some_iff]
    unfold containerEnvKey
    rw [String.append_empty]
  have hfold : containerEnv a name =
      Assoc.setAll (podEnv a) (Assoc.rename (strip (containerEnvKey name "")) a.entries) := by
    unfold containerEnv Assoc.setAll Assoc.rename
    rw [List.foldl_filterMap]
    congr 1
    funext env entry
    cases strip (containerEnvKey name "") entry.1 with
    | none => rfl
    | some rest => rfl
  have hkey : containerKey name ("/task-env/" ++ variableName) =
      containerEnvKey name variableName := by
    exact String.append_assoc.symm
  rw [hfold, Assoc.lookup_setAll (Assoc.nodup_rename hname a.nodup), podEnv_lookup,
    Assoc.lookup_rename hname, hkey]
  rfl

/-- The text between the name of a container and that of its variable. -/
def taskEnv : List Char := ['/', 't', 'a', 's', 'k', '-', 'e', 'n', 'v', '/']

/-- The name `other`, closed by a slash, goes on with `/task-env/` after `name`. -/
def Extends (name other : String) : Prop :=
  name.toList ++ taskEnv <+: other.toList ++ ['/']

/-- A shift by less than its last slash does not bring `/task-env/` over itself. -/
theorem taskEnv_shift {w v v' : List Char} (hw : w ≠ []) (h : taskEnv ++ v = w ++ (taskEnv ++ v')) :
    taskEnv <+: w ++ ['/'] := by
  have hfront : taskEnv <+: w ++ ['/'] ++ (taskEnv.tail ++ v') := by
    have hsame : w ++ ['/'] ++ (taskEnv.tail ++ v') = w ++ (taskEnv ++ v') := by
      rw [List.append_assoc]
      rfl
    rw [hsame, ← h]
    exact List.prefix_append _ _
  by_cases hlen : 9 ≤ w.length
  · refine List.prefix_of_prefix_length_le hfront (List.prefix_append _ _) ?_
    rw [List.length_append]
    exact Nat.succ_le_succ hlen
  · have hdrop : taskEnv.drop w.length <+: taskEnv := by
      have hrest := congrArg (List.drop w.length) h
      rw [List.drop_left, List.drop_append_of_le_length (by simp [taskEnv]; omega)] at hrest
      have hlong : taskEnv.drop w.length <+: taskEnv ++ v' := ⟨_, hrest⟩
      refine List.prefix_of_prefix_length_le hlong (List.prefix_append _ _) ?_
      simp
    have hnone : ∀ k < 9, 0 < k → ¬ taskEnv.drop k <+: taskEnv := by decide
    exact absurd hdrop (hnone _ (by omega) (List.length_pos_iff.mpr hw))

theorem containerEnvKey_eq_iff {name other v v' : String} :
    containerEnvKey other v' = containerEnvKey name v ↔
      other.toList ++ (taskEnv ++ v'.toList) = name.toList ++ (taskEnv ++ v.toList) := by
  unfold containerEnvKey containerKey
  have htext : "/task-env/".toList = taskEnv := rfl
  rw [← String.toList_inj]
  simp only [String.toList_append, List.append_assoc, List.append_cancel_left_eq, htext]

/-- If it does, they share one. -/
theorem extends_shared {name other : String} (h : Extends name other) :
    ∃ v, containerEnvKey other "" = containerEnvKey name v := by
  obtain ⟨u, hu⟩ := h
  refine ⟨.ofList (u ++ taskEnv.tail), ?_⟩
  rw [containerEnvKey_eq_iff]
  calc other.toList ++ (taskEnv ++ [])
      = other.toList ++ ['/'] ++ taskEnv.tail := by
        rw [List.append_assoc]
        rfl
    _ = name.toList ++ (taskEnv ++ (String.ofList (u ++ taskEnv.tail)).toList) := by
        rw [← hu, String.toList_ofList]
        simp only [List.append_assoc]

/-- Two containers share a variable only if the name of one extends that of the other. -/
theorem extends_of_shared {name other v v' : String} (hne : other ≠ name)
    (h : containerEnvKey other v' = containerEnvKey name v) :
    Extends name other ∨ Extends other name := by
  rw [containerEnvKey_eq_iff] at h
  rcases List.append_eq_append_iff.mp h with ⟨w, hname, hrest⟩ | ⟨w, hother, hrest⟩
  · right
    unfold Extends
    rw [hname, List.append_assoc, List.prefix_append_right_inj]
    refine taskEnv_shift ?_ hrest
    rintro rfl
    exact hne (String.toList_inj.mp (by simpa using hname.symm))
  · left
    unfold Extends
    rw [hother, List.append_assoc, List.prefix_append_right_inj]
    refine taskEnv_shift ?_ hrest
    rintro rfl
    exact hne (String.toList_inj.mp (by simpa using hother))

theorem podEnvKey_ne_containerEnvKey (v name v' : String) :
    podEnvKey v ≠ containerEnvKey name v' := by
  intro h
  unfold podEnvKey containerEnvKey containerKey at h
  have hchars := congrArg String.toList h
  simp only [String.toList_append, List.append_assoc] at hchars
  have htask : ("kuasar.io/task-env/".toList ++ v.toList)[10]? = some 't' := rfl
  rw [hchars] at htask
  have hcontainer : ("kuasar.io/container/".toList ++
      (name.toList ++ ("/task-env/".toList ++ v'.toList)))[10]? = some 'c' := rfl
  rw [hcontainer] at htask
  exact absurd htask (by decide)

/-! ## The targets -/

theorem overlay_eq (t : PooledTemplate) (target : Target) :
    (overlay t target).socketPath = target.socketPath ∧
      (overlay t target).context = target.context ∧
      (overlay t target).envOverrides = target.envOverrides ∧
      (overlay t target).containerName = target.containerName := by
  unfold overlay
  split
  · exact ⟨rfl, rfl, rfl, rfl⟩
  · exact ⟨rfl, rfl, rfl, rfl⟩

theorem targetOf_asked (a : AnnotationMap) (name : String) :
    (targetOf a name).socketPath =
        (ownValue a name "/warm-fork-readiness-socket").getD (podSocket a) ∧
      (targetOf a name).context = (ownValue a name "/task-context").getD (podContext a) ∧
      ∀ variableName, (targetOf a name).envOverrides.lookup variableName =
        (ownValue a name ("/task-env/" ++ variableName)).or (a.get (podEnvKey variableName)) := by
  unfold targetOf ownValue
  cases a.get warmForkContainersAnnotation with
  | none => exact ⟨rfl, rfl, podEnv_lookup a⟩
  | some value => exact ⟨rfl, rfl, containerEnv_lookup a name⟩

theorem containerName_targetOf {name : String} (h : name ∈ targetNames a) :
    (targetOf a name).containerName = name := by
  unfold targetNames at h
  unfold targetOf
  cases hvalue : a.get warmForkContainersAnnotation with
  | none =>
    rw [hvalue, List.mem_singleton] at h
    exact h.symm
  | some value => rfl

theorem targetNames_ne_nil (a : AnnotationMap) : targetNames a ≠ [] := by
  unfold targetNames
  split
  · exact List.cons_ne_nil _ _
  · rw [listedNames, ne_eq, List.map_eq_nil_iff]
    exact List.splitOn_ne_nil _ _

def taskOf (t : PooledTemplate) (a : AnnotationMap) (taskId : String) (name : String) :
    ContainerTask where
  containerId := (overlay t (targetOf a name)).containerId
  socketPath := (overlay t (targetOf a name)).socketPath
  taskId := taskId
  envOverrides := (overlay t (targetOf a name)).envOverrides
  context := (overlay t (targetOf a name)).context

theorem taskOf_asked (t : PooledTemplate) (a : AnnotationMap) (taskId name : String) :
    Asked a name (taskOf t a taskId name) := by
  obtain ⟨hsocket, hcontext, henv, -⟩ := overlay_eq t (targetOf a name)
  obtain ⟨hsocket', hcontext', henv'⟩ := targetOf_asked a name
  constructor
  · exact hsocket.trans hsocket'
  · exact hcontext.trans hcontext'
  · intro variableName
    rw [← henv' variableName, ← henv]
    rfl

/-- A name that the template has gets the id of the template. -/
theorem taskOf_recorded {name taskId : String} (h : name ∈ targetNames a)
    (hname : name ∈ t.warmForkTargets.map (·.containerName)) :
    Recorded t name (taskOf t a taskId name) := by
  obtain ⟨target, htarget, htargetName⟩ := List.mem_map.mp hname
  have hsome : (t.warmForkTargets.find? (·.containerName = name)).isSome = true := by
    rw [List.find?_isSome]
    exact ⟨target, htarget, by simpa using htargetName⟩
  obtain ⟨recorded, hrecorded⟩ := Option.isSome_iff_exists.mp hsome
  have hid : (taskOf t a taskId name).containerId = recorded.containerId := by
    simp only [taskOf, overlay, containerName_targetOf h, hrecorded]
  unfold Recorded
  rw [hrecorded, hid]
  rfl

theorem warmForkParams_ok {snapshotFiles : Bool} {params : WarmForkParams}
    (h : warmForkParams snapshotFiles t a = .ok params) :
    params.tasks = (targetNames a).map (taskOf t a (params.taskId.getD "")) ∧
      (targetNames a).Nodup ∧
      (t.warmForkTargets ≠ [] →
        ∀ name ∈ targetNames a, name ∈ t.warmForkTargets.map (·.containerName)) := by
  unfold warmForkParams at h
  split at h
  · cases h
  split at h
  · cases h
  split at h
  · cases h
  · rename_i parsed hparsed
    obtain ⟨htargets, hnodup⟩ := parseWarmForkParams_ok hparsed
    split at h
    · cases h
    · rename_i hsame
      cases h
      refine ⟨?_, hnodup, ?_⟩
      · simp only [WarmForkParams.tasks, htargets, List.map_map]
        rfl
      · intro hrecorded name hname
        have hnames : parsed.targets.map (·.containerName) = targetNames a := by
          rw [htargets, List.map_map]
          refine (List.map_congr_left ?_).trans (List.map_id _)
          intro name hname
          exact containerName_targetOf hname
        rw [hnames] at hsame
        simp only [List.isEmpty_eq_false_iff.mpr hrecorded, Bool.not_false, Bool.true_and,
          Bool.not_eq_true', Bool.not_eq_false, sameNames, Bool.and_eq_true,
          List.all_eq_true] at hsame
        exact List.contains_iff_mem.mp (hsame.2 name hname)

/-- **Targets of a WarmFork restore.** A restore is refused and gives its lease back, or injects
one task for each listed name, in the order of the list, as the annotations ask for it. The
tasks are for the containers that the template has recorded exactly if it has recorded any;
and no variable of a task can be one of another container exactly if no listed name extends
another by `/task-env/`. -/
theorem restore_targets_exact (cfg : Config) (o : TemplateStart.Outcomes)
    (before : RestoreMetadata) (p : TemplatePool) (t : PooledTemplate) (mode : TemplateLeaseMode)
    (a : AnnotationMap) :
    (∀ e, warmForkParams o.snapshotFiles t a = .error e →
      restoreFromWarmForkTemplate cfg { o with annotations := parsedNames a } before p t mode =
        (p.leaseFail o.removed t, .error e)) ∧
    ∀ params, warmForkParams o.snapshotFiles t a = .ok params →
      (targetNames a).Nodup ∧
      List.Forall₂ (Asked a) (targetNames a) params.tasks ∧
      (List.Forall₂ (Recorded t) (targetNames a) params.tasks ↔ t.warmForkTargets ≠ []) ∧
      ((∀ name ∈ targetNames a, ∀ other ∈ targetNames a, other ≠ name → ∀ v v',
          containerEnvKey other v' ≠ containerEnvKey name v ∧
            containerEnvKey other v' ≠ podEnvKey v) ↔
        ∀ name ∈ targetNames a, ∀ other ∈ targetNames a, other ≠ name →
          ¬ Extends name other) := by
  constructor
  · intro e he
    rw [restoreFromWarmForkTemplate_eq, he]
  · intro params hparams
    obtain ⟨htasks, hnodup, hnames⟩ := warmForkParams_ok hparams
    rw [htasks]
    refine ⟨hnodup, ?_, ?_, ?_⟩
    · rw [List.forall₂_map_right_iff, List.forall₂_same]
      intro name _
      exact taskOf_asked t a _ name
    · rw [List.forall₂_map_right_iff, List.forall₂_same]
      constructor
      · intro hrecorded hnone
        obtain ⟨name, hname⟩ := List.exists_mem_of_ne_nil _ (targetNames_ne_nil a)
        have hbad := hrecorded name hname
        unfold Recorded at hbad
        rw [hnone] at hbad
        cases hbad
      · intro hsome name hname
        exact taskOf_recorded hname (hnames hsome name hname)
    · constructor
      · intro hapart name hname other hother hne hext
        obtain ⟨v, hv⟩ := extends_shared hext
        exact (hapart name hname other hother hne v "").1 hv
      · intro hext name hname other hother hne v v'
        refine ⟨?_, (podEnvKey_ne_containerEnvKey v other v').symm⟩
        intro heq
        rcases extends_of_shared hne heq with h | h
        · exact hext name hname other hother hne h
        · exact hext other hother name hname hne.symm h

/-! ## Targets that are not as asked for -/

/-- A WarmFork template with the given targets. -/
def forked (targets : List WarmForkTarget) : PooledTemplate where
  id := "w1"
  key := ⟨"k"⟩
  snapshotType := .warmFork
  readyProtocolVersion := some "1"
  warmForkTargets := targets

/-- A pod with one container. -/
def mainOnly : AnnotationMap := ⟨[( warmForkContainersAnnotation, "main")], by decide⟩

def mainTask (containerId : String) : ContainerTask where
  containerId := containerId
  socketPath := defaultReadinessSocket
  taskId := ""

theorem warmForkParams_mainOnly (containerId : String) :
    ∃ params, warmForkParams true (forked [⟨"main", containerId, ""⟩]) mainOnly = .ok params ∧
      params.tasks = [mainTask containerId] :=
  ⟨_, rfl, rfl⟩

theorem restore_targets_mainOnly :
    ∃ params, warmForkParams true (forked [⟨"main", "c1", ""⟩]) mainOnly = .ok params ∧
      params.tasks = [mainTask "c1"] ∧
      List.Forall₂ (Recorded (forked [⟨"main", "c1", ""⟩])) (targetNames mainOnly)
        params.tasks := by
  obtain ⟨params, hparams, htasks⟩ := warmForkParams_mainOnly "c1"
  have hexact := (restore_targets_exact copyConfig smooth {} basePool _ .shared mainOnly).2 params
    hparams
  exact ⟨params, hparams, htasks, hexact.2.2.1.mpr (by simp [forked])⟩

/-- A pod whose second container is named like a variable of the first. -/
def nested : AnnotationMap where
  entries :=
    [( warmForkContainersAnnotation, "a,a/task-env/b"),
      (containerEnvKey "a/task-env/b" "X", "secret")]
  nodup := by decide

/-- A template without recorded targets is restored with an empty container id; and a variable
of one container is given to another. -/
theorem targets_not_as_asked :
    (∃ params, warmForkParams true (forked []) mainOnly = .ok params ∧
      params.tasks = [mainTask ""]) ∧
    ∃ params task, warmForkParams true (forked [⟨"a", "c1", ""⟩, ⟨"a/task-env/b", "c2", ""⟩])
        nested = .ok params ∧
      params.tasks.head? = some task ∧ task.containerId = "c1" ∧
      task.envOverrides.lookup "b/task-env/X" = nested.get (containerEnvKey "a/task-env/b" "X") ∧
      nested.get (containerEnvKey "a/task-env/b" "X") = some "secret" := by
  refine ⟨⟨_, rfl, rfl⟩, _, _, rfl, rfl, rfl, ?_, ?_⟩
  · decide
  · decide

end Kuasar.WarmFork

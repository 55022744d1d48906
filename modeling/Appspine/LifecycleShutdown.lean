import Appspine.Lifecycle

/-!
# Shutdown during boot

`shutdown` takes the list of started instances when it is called, and `boot` may still add
to that list between its awaits. What both have left behind once they have returned.
-/
namespace Appspine.Lifecycle
open JsText InsertionMap PluginManifest Transitions

variable {options : LifecycleRunnerOptions}

/-- The stage is skipped or its hook returns in time. -/
def RuntimeInstance.passes (i : RuntimeInstance) (stage : PluginLifecycleStage) : Bool :=
  i.hooks stage = none || i.hooks stage = some .returns

/-- A stage of the instance fails, and the failure ends the boot. -/
def RuntimeInstance.Aborts (i : RuntimeInstance) : Prop :=
  i.fatal = true ∧ ∃ stage ∈ PLUGIN_BOOT_STAGES, i.passes stage = false

/-- `boot` gets to the instance, and its registration succeeds. -/
def GetsRegistered (instances : List RuntimeInstance) (i : RuntimeInstance) : Prop :=
  ∃ before rest, instances = before ++ i :: rest ∧ (∀ j ∈ before, ¬ j.Aborts) ∧
    i.passes .validate = true ∧ i.passes .register = true

/-- Every instance that `boot` ever registers has been started by now. -/
def AllStarted (options : LifecycleRunnerOptions) (r : PluginLifecycleRunner) : Prop :=
  ∀ i, GetsRegistered options.instances i → i.key ∈ r.started.map (·.key)

/-- The event records a registration that succeeded or was skipped. -/
def registration (e : LifecycleEvent) : Bool :=
  e.stage = .register && (e.outcome = .ok || e.outcome = .skipped)

/-- Every instance whose registration was recorded has a shutdown event. -/
def NoneLeftRunning (r : PluginLifecycleRunner) : Prop :=
  ∀ e ∈ r.recorded, registration e = true → ∃ e' ∈ r.recorded, e'.stage = .shutdown ∧ e'.key = e.key

def BothReturned (r : PluginLifecycleRunner) : Prop :=
  (∃ outcome diagnostics, r.boot = .returned outcome diagnostics) ∧
    ∃ outcome events, r.shutdown = .returned outcome events

section Registering

/-- The instances registered from here on, with `stages` of `i` to go and `after` behind it. -/
def registeringStages (i : RuntimeInstance) (after : List RuntimeInstance) :
    List PluginLifecycleStage → List RuntimeInstance
  | [] => after
  | stage :: stages =>
    if i.passes stage then
      (if stage = .register then [i] else []) ++ registeringStages i after stages
    else if i.fatal then [] else after

def registering : List RuntimeInstance → List RuntimeInstance
  | [] => []
  | i :: rest => registeringStages i (registering rest) PLUGIN_BOOT_STAGES

lemma aborts_iff {i : RuntimeInstance} : i.Aborts ↔ i.fatal = true ∧
    (i.passes .validate = false ∨ i.passes .register = false ∨ i.passes .ready = false) := by
  simp [RuntimeInstance.Aborts, PLUGIN_BOOT_STAGES]

lemma mem_registering_cons {i j : RuntimeInstance} {rest : List RuntimeInstance} :
    j ∈ registering (i :: rest) ↔
      (j = i ∧ i.passes .validate = true ∧ i.passes .register = true) ∨
        (¬ i.Aborts ∧ j ∈ registering rest) := by
  rw [aborts_iff]
  simp only [registering, registeringStages, PLUGIN_BOOT_STAGES]
  cases i.passes .validate <;> cases i.passes .register <;> cases i.passes .ready <;>
    cases i.fatal <;> simp

lemma mem_registering {instances : List RuntimeInstance} {i : RuntimeInstance} :
    i ∈ registering instances ↔ GetsRegistered instances i := by
  induction instances with
  | nil => simp [registering, GetsRegistered]
  | cons j rest ih =>
    rw [mem_registering_cons, ih]
    constructor
    · rintro (⟨rfl, hv, hr⟩ | ⟨hj, before, after, rfl, hbefore, hpass⟩)
      · exact ⟨[], rest, rfl, by simp, hv, hr⟩
      · refine ⟨j :: before, after, rfl, ?_, hpass⟩
        intro k hk
        rcases List.mem_cons.mp hk with rfl | hk
        · exact hj
        · exact hbefore k hk
    · rintro ⟨before, after, heq, hbefore, hpass⟩
      cases before with
      | nil =>
        obtain ⟨rfl, rfl⟩ := List.cons.inj heq
        exact Or.inl ⟨rfl, hpass⟩
      | cons k before =>
        obtain ⟨rfl, rfl⟩ := List.cons.inj heq
        exact Or.inr ⟨hbefore j (by simp), before, after, rfl,
          fun k hk => hbefore k (by simp [hk]), hpass⟩

end Registering

section Boot

variable {r r' : PluginLifecycleRunner}

/-- What a stretch of `boot` adds to the log and to the started list. -/
structure BootExtends (r r' : PluginLifecycleRunner) : Prop where
  shutdown : r'.shutdown = r.shutdown
  grows : ∃ events started, r'.recorded = r.recorded ++ events ∧
    r'.started = r.started ++ started ∧
    (events.filter registration).map (·.key) = started.map (·.key) ∧
    ∀ e ∈ events, e.stage ≠ .shutdown

lemma BootExtends.of_same (hs : r'.shutdown = r.shutdown) (hrec : r'.recorded = r.recorded)
    (hst : r'.started = r.started) : BootExtends r r' :=
  ⟨hs, [], [], by simp [hrec], by simp [hst], rfl, by simp⟩

lemma BootExtends.trans {s : PluginLifecycleRunner} (h : BootExtends r r') (h' : BootExtends r' s) :
    BootExtends r s := by
  obtain ⟨hs, es, is, hes, his, hkeys, hno⟩ := h
  obtain ⟨hs', es', is', hes', his', hkeys', hno'⟩ := h'
  refine ⟨hs'.trans hs, es ++ es', is ++ is', by simp [hes', hes], by simp [his', his], ?_, ?_⟩
  · simp [List.filter_append, hkeys, hkeys']
  · intro e he
    rcases List.mem_append.mp he with he | he
    · exact hno e he
    · exact hno' e he

lemma passStage_extends (i : RuntimeInstance) {stage : PluginLifecycleStage}
    (hstage : stage ∈ PLUGIN_BOOT_STAGES) {outcome : StageOutcome}
    (ho : outcome = .ok ∨ outcome = .skipped) : BootExtends r (passStage r i stage outcome) := by
  refine ⟨by cases stage <;> rfl, [eventOf i stage outcome], if stage = .register then [i] else [],
    by cases stage <;> rfl, ?_, ?_, ?_⟩
  · cases stage <;> simp [passStage, advance, PluginLifecycleRunner.setStatus,
      PluginLifecycleRunner.record]
  · rcases ho with rfl | rfl <;> cases stage <;> simp [registration, eventOf]
  · intro e he
    rw [List.mem_singleton.mp he]
    rintro rfl
    simp [PLUGIN_BOOT_STAGES] at hstage

lemma failStage_extends (i : RuntimeInstance) {stage : PluginLifecycleStage}
    (hstage : stage ∈ PLUGIN_BOOT_STAGES) (error : StageError) :
    BootExtends r (failStage r i stage error) := by
  have hout : registration (eventOf i stage (if error.timedOut then .timeout else .failed)) = false := by
    cases error.timedOut <;> simp [registration, eventOf]
  refine ⟨rfl, [eventOf i stage (if error.timedOut then .timeout else .failed)], [], rfl,
    (List.append_nil _).symm, by simp [hout], ?_⟩
  intro e he
  rw [List.mem_singleton.mp he]
  rintro rfl
  simp [PLUGIN_BOOT_STAGES] at hstage

/-- What `boot` has yet to register where it waits. -/
def yetToRegister (options : LifecycleRunnerOptions) : BootPhase → List RuntimeInstance
  | .idle => registering options.instances
  | .hook i stage _ stages rest _ => registeringStages i (registering rest) (stage :: stages)
  | .settled i failure rest _ => if failure.isSome && i.fatal then [] else registering rest
  | .returned _ _ => []

/-- The hook waited for is the instance's own, and an aborted boot waits no more. -/
def BootPhase.Sound : BootPhase → Prop
  | .hook i stage work stages _ progress => i.hooks stage = some work ∧
      (∀ s ∈ stage :: stages, s ∈ PLUGIN_BOOT_STAGES) ∧ progress.aborted = false
  | .settled _ _ _ progress => progress.aborted = false
  | _ => True

/-- A stretch of `boot` at whose start `ahead` is still to be registered. -/
structure BootStretch (options : LifecycleRunnerOptions) (r r' : PluginLifecycleRunner)
    (ahead : List RuntimeInstance) : Prop where
  extends_ : BootExtends r r'
  sound : r'.boot.Sound
  ahead_eq : r'.started ++ yetToRegister options r'.boot = r.started ++ ahead

lemma BootStretch.after {options : LifecycleRunnerOptions} {s : PluginLifecycleRunner}
    {ahead ahead' : List RuntimeInstance} (hx : BootExtends r r') (h : BootStretch options r' s ahead)
    (heq : r'.started ++ ahead = r.started ++ ahead') : BootStretch options r s ahead' :=
  ⟨hx.trans h.extends_, h.sound, h.ahead_eq.trans heq⟩

lemma BootStretch.of_setStatus {s : PluginLifecycleRunner} {key : JsString}
    {status : PluginInstanceStatus} {ahead : List RuntimeInstance}
    (h : BootStretch options (r.setStatus key status) s ahead) : BootStretch options r s ahead := by
  have hx : BootExtends r (r.setStatus key status) := BootExtends.of_same rfl rfl rfl
  exact h.after hx rfl

lemma started_passStage (i : RuntimeInstance) (stage : PluginLifecycleStage)
    (outcome : StageOutcome) : (passStage r i stage outcome).started =
      r.started ++ (if stage = .register then [i] else []) := by
  cases stage <;> simp [passStage, advance, PluginLifecycleRunner.setStatus,
    PluginLifecycleRunner.record]

lemma runBootStages_stretch (i : RuntimeInstance) (rest : List RuntimeInstance)
    {progress : BootProgress} (hp : progress.aborted = false) {stages : List PluginLifecycleStage}
    (hstages : ∀ s ∈ stages, s ∈ PLUGIN_BOOT_STAGES) :
    BootStretch options r (runBootStages r i rest progress stages)
      (registeringStages i (registering rest) stages) := by
  induction stages generalizing r with
  | nil => exact ⟨BootExtends.of_same rfl rfl rfl, hp, by simp [runBootStages, yetToRegister,
      registeringStages]⟩
  | cons stage stages ih =>
    unfold runBootStages
    cases hhook : i.hooks stage with
    | none =>
      have hpass : i.passes stage = true := by simp [RuntimeInstance.passes, hhook]
      have hrest : BootStretch options (passStage r i stage .skipped) _ _ :=
        ih (fun s hs => hstages s (by simp [hs]))
      refine BootStretch.after (passStage_extends i (hstages stage (by simp)) (Or.inr rfl)) hrest ?_
      rw [started_passStage, registeringStages, if_pos hpass, List.append_assoc]
    | some work =>
      exact ⟨BootExtends.of_same rfl rfl rfl, ⟨hhook, hstages, hp⟩, rfl⟩

lemma bootLoop_stretch (rest : List RuntimeInstance) (progress : BootProgress) :
    BootStretch options r (bootLoop r progress rest)
      (if progress.aborted then [] else registering rest) := by
  induction rest generalizing r with
  | nil => exact ⟨BootExtends.of_same rfl rfl rfl, trivial, by simp [bootLoop, yetToRegister,
      registering]⟩
  | cons i rest ih =>
    unfold bootLoop
    by_cases hp : progress.aborted = true
    · simp only [hp, if_true] at ih ⊢
      exact BootStretch.of_setStatus (ih (r := r.setStatus i.key .notReached))
    · simp only [hp, if_false, Bool.false_eq_true]
      rw [Bool.not_eq_true] at hp
      exact runBootStages_stretch i rest hp (fun s hs => hs)

lemma withTimeout_eq_none {work : HookResult} {timeoutMs : ℕ} {stage : PluginLifecycleStage}
    {key : JsString} : withTimeout work timeoutMs stage key = none ↔ work = .returns := by
  cases work <;> simp [withTimeout]

lemma settleStage_stretch {i : RuntimeInstance} {stage : PluginLifecycleStage} {work : HookResult}
    {stages : List PluginLifecycleStage} (rest : List RuntimeInstance) {progress : BootProgress}
    (h : (BootPhase.hook i stage work stages rest progress).Sound) :
    BootStretch options r (settleStage options r i stage work stages rest progress)
      (registeringStages i (registering rest) (stage :: stages)) := by
  obtain ⟨hhook, hstages, hp⟩ := h
  unfold settleStage
  rw [registeringStages]
  cases hw : withTimeout work (options.stageTimeoutMs.getD DEFAULT_STAGE_TIMEOUT_MS) stage i.key with
  | none =>
    rw [withTimeout_eq_none.mp hw] at hhook
    have hpass : i.passes stage = true := by simp [RuntimeInstance.passes, hhook]
    have hleft : ∀ s ∈ stages, s ∈ PLUGIN_BOOT_STAGES := fun s hs => hstages s (by simp [hs])
    have hrest : BootStretch options (passStage r i stage .ok) _ _ :=
      runBootStages_stretch i rest hp hleft
    refine BootStretch.after (passStage_extends i (hstages stage (by simp)) (Or.inl rfl)) hrest ?_
    rw [started_passStage, if_pos hpass, List.append_assoc]
  | some error =>
    have hfail : i.passes stage = false := by
      have hne : work ≠ .returns := fun h => by rw [withTimeout_eq_none.mpr h] at hw; cases hw
      simp [RuntimeInstance.passes, hhook, hne]
    have hx := failStage_extends (r := r) i (hstages stage (by simp)) error
    refine ⟨⟨hx.shutdown, hx.grows⟩, hp, ?_⟩
    simp [hfail, yetToRegister, failStage, PluginLifecycleRunner.setError,
      PluginLifecycleRunner.record]

lemma resumeBoot_stretch {i : RuntimeInstance} {failure : Option PluginDiagnostic}
    (rest : List RuntimeInstance) {progress : BootProgress} (hp : progress.aborted = false) :
    BootStretch options r (resumeBoot r i failure rest progress)
      (if failure.isSome && i.fatal then [] else registering rest) := by
  unfold resumeBoot
  cases failure with
  | none => simpa [hp] using bootLoop_stretch (r := r) rest progress
  | some d =>
    by_cases hf : i.fatal = true
    · have hloop : BootStretch options (r.setStatus i.key .failed) _ _ := bootLoop_stretch rest
        { progress with
          diagnostics := progress.diagnostics ++ [d]
          aborted := true }
      simpa [hf] using hloop.of_setStatus
    · have hloop : BootStretch options (r.setStatus i.key .degraded) _ _ := bootLoop_stretch rest
        { progress with
          diagnostics := progress.diagnostics ++ [d]
          degraded := true }
      simpa [hf, hp] using hloop.of_setStatus

lemma step_boot (hs : r.boot.Sound) (h : step options r .boot = some r') :
    BootStretch options r r' (yetToRegister options r.boot) := by
  simp only [step] at h
  cases hb : r.boot with
  | idle =>
    rw [hb] at h
    obtain rfl := Option.some.inj h
    exact bootLoop_stretch options.instances ⟨[], false, false⟩
  | hook i stage work stages rest progress =>
    rw [hb] at h hs
    obtain rfl := Option.some.inj h
    exact settleStage_stretch rest hs
  | settled i failure rest progress =>
    rw [hb] at h hs
    obtain rfl := Option.some.inj h
    exact resumeBoot_stretch rest hs
  | returned outcome diagnostics =>
    rw [hb] at h
    cases h

end Boot

section Shutdown

variable {r r' : PluginLifecycleRunner}

/-- The instances `shutdown` has yet to stop where it waits. -/
def toStop (started : List RuntimeInstance) : ShutdownPhase → List RuntimeInstance
  | .idle => started.reverse
  | .hook i _ rest _ => i :: rest
  | .returned _ _ => []

def shutdownKeys (r : PluginLifecycleRunner) : List JsString :=
  (r.recorded.filter (fun e => e.stage = .shutdown)).map (·.key)

/-- A stretch of `shutdown` that starts with these instances to stop. -/
structure ShutdownStretch (r r' : PluginLifecycleRunner) (pending : List RuntimeInstance) :
    Prop where
  boot : r'.boot = r.boot
  started : r'.started = r.started
  called : r'.shutdown ≠ .idle
  logged : ∃ events, r'.recorded = r.recorded ++ events ∧ (∀ e ∈ events, e.stage = .shutdown) ∧
    events.map (·.key) ++ (toStop r'.started r'.shutdown).map (·.key) = pending.map (·.key)

lemma ShutdownStretch.after {s : PluginLifecycleRunner} {i : RuntimeInstance}
    {pending : List RuntimeInstance} {outcome : StageOutcome} (h : ShutdownStretch r' s pending)
    (hb : r'.boot = r.boot) (hst : r'.started = r.started)
    (hrec : r'.recorded = r.recorded ++ [eventOf i .shutdown outcome]) :
    ShutdownStretch r s (i :: pending) := by
  obtain ⟨hboot, hstarted, hcalled, events, hevents, hstage, hkeys⟩ := h
  refine ⟨hboot.trans hb, hstarted.trans hst, hcalled, eventOf i .shutdown outcome :: events, ?_, ?_, ?_⟩
  · rw [hevents, hrec, List.append_assoc, List.singleton_append]
  · intro e he
    rcases List.mem_cons.mp he with rfl | he
    · rfl
    · exact hstage e he
  · rw [List.map_cons, List.map_cons, List.cons_append, hkeys]
    rfl

lemma shutdownLoop_stretch (pending : List RuntimeInstance) (progress : ShutdownProgress) :
    ShutdownStretch r (shutdownLoop r progress pending) pending := by
  induction pending generalizing r progress with
  | nil => exact ⟨rfl, rfl, by simp [shutdownLoop], [], by simp [shutdownLoop], by simp,
      by simp [shutdownLoop, toStop]⟩
  | cons i pending ih =>
    unfold shutdownLoop
    cases hhook : i.hooks .shutdown with
    | none => exact (ih _).after rfl rfl rfl
    | some work => exact ⟨rfl, rfl, by simp, [], by simp, by simp, by simp [toStop]⟩

lemma settleShutdown_stretch (i : RuntimeInstance) (work : HookResult) (rest : List RuntimeInstance)
    (progress : ShutdownProgress) :
    ShutdownStretch r (settleShutdown options r i work rest progress) (i :: rest) := by
  simp only [settleShutdown]
  split
  · exact (shutdownLoop_stretch rest _).after rfl rfl rfl
  · exact (shutdownLoop_stretch rest _).after rfl rfl rfl

lemma step_shutdown (h : step options r .shutdown = some r') :
    ShutdownStretch r r' (toStop r.started r.shutdown) := by
  simp only [step] at h
  cases hs : r.shutdown with
  | idle =>
    rw [hs] at h
    obtain rfl := Option.some.inj h
    exact shutdownLoop_stretch _ _
  | hook i work rest progress =>
    rw [hs] at h
    obtain rfl := Option.some.inj h
    exact settleShutdown_stretch i work rest progress
  | returned outcome events =>
    rw [hs] at h
    cases h

end Shutdown

section Runs

variable {r r' s : PluginLifecycleRunner}

structure RunnerInvariant (options : LifecycleRunnerOptions) (r : PluginLifecycleRunner) : Prop where
  sound : r.boot.Sound
  ahead : r.started ++ yetToRegister options r.boot = registering options.instances
  logged : (r.recorded.filter registration).map (·.key) = r.started.map (·.key)
  quiet : r.shutdown = .idle → shutdownKeys r = []

lemma newRunner_invariant : RunnerInvariant options (newRunner options) :=
  ⟨trivial, rfl, rfl, fun _ => rfl⟩

lemma filter_registration_shutdown {events : List LifecycleEvent}
    (h : ∀ e ∈ events, e.stage = .shutdown) : events.filter registration = [] := by
  rw [List.filter_eq_nil_iff]
  intro e he
  simp [registration, h e he]

lemma shutdownKeys_of_boot (h : BootExtends r r') : shutdownKeys r' = shutdownKeys r := by
  obtain ⟨_, events, _, hevents, _, _, hno⟩ := h
  have hnone : events.filter (fun e => decide (e.stage = .shutdown)) = [] := by
    rw [List.filter_eq_nil_iff]
    intro e he
    simpa using hno e he
  simp [shutdownKeys, hevents, hnone]

lemma step_invariant (hr : RunnerInvariant options r) {task : Task}
    (h : step options r task = some r') : RunnerInvariant options r' := by
  cases task with
  | boot =>
    have hst := step_boot hr.sound h
    have hkeys := shutdownKeys_of_boot hst.extends_
    obtain ⟨hshutdown, events, started, hevents, hstarted, hsame, _⟩ := hst.extends_
    refine ⟨hst.sound, hst.ahead_eq.trans hr.ahead, ?_, ?_⟩
    · rw [hevents, hstarted, List.filter_append, List.map_append, List.map_append, hr.logged, hsame]
    · intro hidle
      rw [hkeys, hr.quiet (hshutdown ▸ hidle)]
  | shutdown =>
    obtain ⟨hboot, hstarted, hcalled, events, hevents, hstage, _⟩ := step_shutdown h
    refine ⟨hboot ▸ hr.sound, by rw [hstarted, hboot, hr.ahead], ?_, fun hidle => absurd hidle hcalled⟩
    rw [hevents, List.filter_append, filter_registration_shutdown hstage, List.append_nil, hr.logged,
      hstarted]

/-- Once called, `shutdown` accounts for the same keys at every later await. -/
def Accounts (keys : List JsString) (r : PluginLifecycleRunner) : Prop :=
  r.shutdown ≠ .idle ∧ shutdownKeys r ++ (toStop r.started r.shutdown).map (·.key) = keys

lemma shutdownKeys_of_shutdown {pending : List RuntimeInstance} (h : ShutdownStretch r r' pending) :
    shutdownKeys r' ++ (toStop r'.started r'.shutdown).map (·.key) =
      shutdownKeys r ++ pending.map (·.key) := by
  obtain ⟨_, _, _, events, hevents, hstage, hkeys⟩ := h
  have hall : events.filter (fun e => decide (e.stage = .shutdown)) = events := by
    rw [List.filter_eq_self]
    intro e he
    simpa using hstage e he
  rw [shutdownKeys, hevents, List.filter_append, hall, List.map_append, List.append_assoc, hkeys]
  rfl

lemma step_accounts {keys : List JsString} (hr : RunnerInvariant options r) (ha : Accounts keys r)
    {task : Task} (h : step options r task = some r') : Accounts keys r' := by
  obtain ⟨hcalled, hkeys⟩ := ha
  cases task with
  | boot =>
    have hx := (step_boot hr.sound h).extends_
    refine ⟨by rwa [hx.shutdown], ?_⟩
    rw [shutdownKeys_of_boot hx, hx.shutdown, ← hkeys]
    cases hs : r.shutdown with
    | idle => exact absurd hs hcalled
    | hook i work rest progress => rfl
    | returned outcome events => rfl
  | shutdown =>
    have hst := step_shutdown h
    exact ⟨hst.called, (shutdownKeys_of_shutdown hst).trans hkeys⟩

/-- The call of `shutdown` in a run that ends with `shutdown` under way or returned. -/
lemma exists_call {tasks : List Task} (hrun : run (step options) r tasks = some s)
    (hr : RunnerInvariant options r) (hidle : r.shutdown = .idle) (hs : s.shutdown ≠ .idle) :
    ∃ before after t, tasks = before ++ .shutdown :: after ∧
      run (step options) r before = some t ∧ t.shutdown = .idle := by
  induction tasks generalizing r with
  | nil =>
    obtain rfl := Option.some.inj hrun
    exact absurd hidle hs
  | cons task tasks ih =>
    obtain ⟨u, hu, hrest⟩ := run_cons.mp hrun
    cases task with
    | boot =>
      have hx := (step_boot hr.sound hu).extends_
      obtain ⟨before, after, t, rfl, hbefore, ht⟩ :=
        ih hrest (step_invariant hr hu) (hx.shutdown.trans hidle)
      exact ⟨.boot :: before, after, t, rfl, run_cons.mpr ⟨u, hu, hbefore⟩, ht⟩
    | shutdown => exact ⟨[], tasks, r, rfl, rfl, hidle⟩

/-- What both tasks have left behind, by the state in which `shutdown` was called. -/
lemma noneLeftRunning_of_call {before after : List Task} {t : PluginLifecycleRunner}
    (hbefore : run (step options) (newRunner options) before = some t) (hidle : t.shutdown = .idle)
    (hrun : run (step options) (newRunner options) (before ++ .shutdown :: after) = some s)
    (hdone : BothReturned s) : NoneLeftRunning s ↔ AllStarted options t := by
  have hinv : ∀ q task q', RunnerInvariant options q → step options q task = some q' →
      RunnerInvariant options q' := fun _ _ _ hq h => step_invariant hq h
  have hrt : RunnerInvariant options t := run_invariant hinv newRunner_invariant hbefore
  obtain ⟨t', ht', hrun⟩ := run_append.mp hrun
  rw [hbefore, Option.some.injEq] at ht'
  subst ht'
  obtain ⟨u, hu, hrun⟩ := run_cons.mp hrun
  have hstretch := step_shutdown hu
  have hcall : Accounts ((t.started.reverse).map (·.key)) u := by
    refine ⟨hstretch.called, ?_⟩
    rw [shutdownKeys_of_shutdown hstretch, hrt.quiet hidle, hidle]
    rfl
  have hboth : ∀ q task q',
      RunnerInvariant options q ∧ Accounts ((t.started.reverse).map (·.key)) q →
      step options q task = some q' →
      RunnerInvariant options q' ∧ Accounts ((t.started.reverse).map (·.key)) q' :=
    fun _ _ _ hq h => ⟨step_invariant hq.1 h, step_accounts hq.1 hq.2 h⟩
  obtain ⟨hrs, _, hkeys⟩ := run_invariant hboth ⟨step_invariant hrt hu, hcall⟩ hrun
  obtain ⟨⟨_, _, hboot⟩, _, _, hshutdown⟩ := hdone
  have hstarted : s.started = registering options.instances := by
    have := hrs.ahead
    rwa [hboot, yetToRegister, List.append_nil] at this
  rw [hshutdown, toStop, List.map_nil, List.append_nil] at hkeys
  have hevent : ∀ key, (∃ e' ∈ s.recorded, e'.stage = .shutdown ∧ e'.key = key) ↔
      key ∈ t.started.map (·.key) := by
    intro key
    have hmem : key ∈ shutdownKeys s ↔ key ∈ t.started.map (·.key) := by
      rw [hkeys, List.map_reverse, List.mem_reverse]
    rw [← hmem]
    simp [shutdownKeys, and_assoc]
  have hregistered : ∀ key, (∃ e ∈ s.recorded, registration e = true ∧ e.key = key) ↔
      ∃ i, GetsRegistered options.instances i ∧ i.key = key := by
    intro key
    have hmem : key ∈ (s.recorded.filter registration).map (·.key) ↔
        key ∈ (registering options.instances).map (·.key) := by rw [hrs.logged, hstarted]
    simpa [mem_registering, and_assoc] using hmem
  constructor
  · intro hnone i hi
    obtain ⟨e, he, hreg, hkey⟩ := (hregistered i.key).mpr ⟨i, hi, rfl⟩
    rw [← hkey]
    exact (hevent e.key).mp (hnone e he hreg)
  · intro hall e he hreg
    obtain ⟨i, hi, hkey⟩ := (hregistered e.key).mp ⟨e, he, hreg, rfl⟩
    rw [← hkey]
    exact (hevent i.key).mpr (hall i hi)

/-- When both have returned, every registered instance has been shut down exactly when
`shutdown` was called with all of them started. -/
theorem shutdown_stops_started {tasks : List Task} {r : PluginLifecycleRunner}
    (hrun : run (step options) (newRunner options) tasks = some r) (hdone : BothReturned r) :
    NoneLeftRunning r ↔ ∀ before after t, tasks = before ++ .shutdown :: after →
      run (step options) (newRunner options) before = some t → t.shutdown = .idle →
        AllStarted options t := by
  constructor
  · rintro hnone before after t rfl hbefore hidle
    exact (noneLeftRunning_of_call hbefore hidle hrun hdone).mp hnone
  · intro hall
    have hcalled : r.shutdown ≠ .idle := by
      obtain ⟨_, outcome, events, hs⟩ := hdone
      simp [hs]
    obtain ⟨before, after, t, rfl, hbefore, hidle⟩ :=
      exists_call hrun newRunner_invariant rfl hcalled
    exact (noneLeftRunning_of_call hbefore hidle hrun hdone).mpr
      (hall before after t rfl hbefore hidle)

end Runs

section Example

/-- A plugin whose registration waits for a hook. -/
def waiting (key : JsString) : RuntimeInstance :=
  { key := key, pluginId := key, instanceId := js "default", required := true, provides := [],
    requires := [], hooks := fun stage => if stage = .register then some .returns else none,
    optionalFailurePolicy := false, shutdownTimeoutMs := none }

def oneWaiting : LifecycleRunnerOptions :=
  { instances := [waiting (js "a")], stageTimeoutMs := none, shutdownTimeoutMs := none }

theorem shutdown_stops_started_after_boot : ∃ r,
    run (step oneWaiting) (newRunner oneWaiting) [.boot, .boot, .boot, .shutdown] = some r ∧
      (NoneLeftRunning r ↔ ∀ before after t,
        [Task.boot, .boot, .boot, .shutdown] = before ++ .shutdown :: after →
        run (step oneWaiting) (newRunner oneWaiting) before = some t → t.shutdown = .idle →
          AllStarted oneWaiting t) :=
  ⟨_, rfl, shutdown_stops_started rfl ⟨⟨_, _, rfl⟩, _, _, rfl⟩⟩

/-- `shutdown` is called while the registration waits, and finds nothing to stop. -/
theorem shutdown_during_boot : ∃ r,
    run (step oneWaiting) (newRunner oneWaiting) [.boot, .shutdown, .boot, .boot] = some r ∧
      BothReturned r ∧ ¬ NoneLeftRunning r := by
  refine ⟨_, rfl, ⟨⟨_, _, rfl⟩, _, _, rfl⟩, ?_⟩
  intro hnone
  have hevent := hnone (eventOf (waiting (js "a")) .register .ok) (by decide) rfl
  revert hevent
  decide

end Example

end Appspine.Lifecycle

import Appspine.LifecycleOutcome

/-!
# Shutdown after a boot

`shutdown`, called when `boot` has returned, goes through the registered instances from the last
to the first. Its events, its outcome and the statuses it leaves are views of what the shutdown
hooks do.
-/
namespace Appspine.Lifecycle
open JsText InsertionMap PluginManifest Transitions

variable {options : LifecycleRunnerOptions}

section Registered

variable {r : PluginLifecycleRunner}

def registrationOf (i : RuntimeInstance) : LifecycleEvent :=
  eventOf i .register (stageOutcome (i.hooks .register))

/-- The started instances are those whose registration is in the log. -/
def Registered (r : PluginLifecycleRunner) : Prop :=
  r.recorded.filter registration = r.started.map registrationOf

lemma registration_of_passes {i : RuntimeInstance} {stage : PluginLifecycleStage}
    (h : i.passes stage = true) :
    registration (eventOf i stage (stageOutcome (i.hooks stage))) = decide (stage = .register) := by
  rcases stageOutcome_passes h with h | h <;> cases stage <;> simp [registration, eventOf, h]

lemma Registered.passStage (h : Registered r) {i : RuntimeInstance} {stage : PluginLifecycleStage}
    (hpasses : i.passes stage = true) :
    Registered (passStage r i stage (stageOutcome (i.hooks stage))) := by
  have hkind := registration_of_passes hpasses
  rw [Registered, recorded_passStage, started_passStage, List.filter_append, List.map_append, h]
  congr 1
  cases stage with
  | register => simp [hkind, registrationOf]
  | validate => simp [hkind]
  | ready => simp [hkind]
  | shutdown => simp [hkind]

lemma Registered.failStage (h : Registered r) (i : RuntimeInstance) (stage : PluginLifecycleStage)
    (error : StageError) : Registered (failStage r i stage error) := by
  have hkind : registration (eventOf i stage (if error.timedOut then .timeout else .failed)) =
      false := by cases error.timedOut <;> simp [registration, eventOf]
  have hrecorded : (Lifecycle.failStage r i stage error).recorded =
      r.recorded ++ [eventOf i stage (if error.timedOut then .timeout else .failed)] := rfl
  have hstarted : (Lifecycle.failStage r i stage error).started = r.started := rfl
  rw [Registered, hrecorded, hstarted, List.filter_append, h]
  simp [hkind]

lemma stagesEffect_invariant {P : PluginLifecycleRunner → Prop}
    (hpass : ∀ r i stage, stage ∈ PLUGIN_BOOT_STAGES → i.passes stage = true → P r →
      P (Lifecycle.passStage r i stage (stageOutcome (i.hooks stage))))
    (hfail : ∀ r i stage error, P r → P (Lifecycle.failStage r i stage error))
    (h : P r) (i : RuntimeInstance) {stages : List PluginLifecycleStage}
    (hstages : ∀ stage ∈ stages, stage ∈ PLUGIN_BOOT_STAGES) :
    P (stagesEffect options r i stages).1 := by
  induction stages generalizing r with
  | nil => exact h
  | cons stage stages ih =>
    have hrest : ∀ s ∈ stages, s ∈ PLUGIN_BOOT_STAGES :=
      fun s hs => hstages s (List.mem_cons_of_mem _ hs)
    unfold stagesEffect
    cases hfailure : failureOf options i stage with
    | none =>
      have hpasses := failureOf_eq_none.mp hfailure
      exact ih (hpass r i stage (hstages stage List.mem_cons_self) hpasses h) hrest
    | some error => exact hfail r i stage error h

/-- What the three ways `boot` changes the runner keep, a whole boot keeps. -/
lemma bootEffect_invariant {P : PluginLifecycleRunner → Prop}
    (hset : ∀ r key status, status ≠ .stopped → P r → P (r.setStatus key status))
    (hpass : ∀ r i stage, stage ∈ PLUGIN_BOOT_STAGES → i.passes stage = true → P r →
      P (Lifecycle.passStage r i stage (stageOutcome (i.hooks stage))))
    (hfail : ∀ r i stage error, P r → P (Lifecycle.failStage r i stage error))
    (h : P r) (progress : BootProgress) (instances : List RuntimeInstance) :
    P (bootEffect options r progress instances).1 := by
  induction instances generalizing r progress with
  | nil => exact h
  | cons i rest ih =>
    unfold bootEffect
    by_cases hp : progress.aborted = true
    · rw [if_pos hp]
      exact ih (hset r i.key .notReached (by simp) h) progress
    · rw [if_neg hp]
      have hstages : P (stagesEffect options r i PLUGIN_BOOT_STAGES).1 :=
        stagesEffect_invariant hpass hfail h i fun _ hs => hs
      dsimp only
      cases (stagesEffect options r i PLUGIN_BOOT_STAGES).2 with
      | none => exact ih hstages progress
      | some d =>
        dsimp only
        split_ifs
        · exact ih (hset _ i.key .failed (by simp) hstages) _
        · exact ih (hset _ i.key .degraded (by simp) hstages) _

lemma booted_registered : Registered (booted options) := by
  have hnew : Registered (newRunner options) := rfl
  exact bootEffect_invariant (fun _ _ _ _ h => h) (fun _ _ _ _ hpasses h => h.passStage hpasses)
    (fun _ i stage error h => h.failStage i stage error) hnew ⟨[], false, false⟩ options.instances

lemma booted_named : named (booted options) = named (newRunner options) :=
  bootEffect_invariant (P := fun r => named r = named (newRunner options))
    (fun _ key status _ h => (named_setStatus key status).trans h)
    (fun _ i stage _ _ h => (named_passStage i stage _).trans h)
    (fun _ i stage error h => (named_failStage i stage error).trans h) rfl _ _

lemma booted_catalogued : Catalogued options (booted options) := by
  intro i hi
  rw [isSome_statusOf, booted_named, ← isSome_statusOf]
  exact newRunner_catalogued i hi

lemma newRunner_not_stopped (key : JsString) : statusOf (newRunner options) key ≠ some .stopped := by
  have hpending : ∀ (is : List RuntimeInstance) (m : Entries JsString CatalogEntry),
      (∀ e ∈ m, e.2.status = .pending) →
      ∀ e ∈ is.foldl (fun m i => InsertionMap.set m i.key (pendingEntry i)) m,
        e.2.status = .pending := by
    intro is
    induction is with
    | nil => exact fun m hm => hm
    | cons i is ih =>
      intro m hm
      refine ih _ fun e he => ?_
      rcases mem_set he with rfl | he
      · rfl
      · exact hm e he
  intro hstopped
  obtain ⟨entry, hentry, hstatus⟩ := Option.map_eq_some_iff.mp hstopped
  have hmem := hpending options.instances [] (by simp) _ (mem_of_get hentry)
  rw [hstatus] at hmem
  cases hmem

lemma booted_not_stopped (key : JsString) : statusOf (booted options) key ≠ some .stopped := by
  have hmap : ∀ {status : PluginInstanceStatus} {o : Option PluginInstanceStatus},
      status ≠ .stopped → o.map (fun _ => status) ≠ some .stopped := by
    intro status o hne heq
    obtain ⟨old, _, hstopped⟩ := Option.map_eq_some_iff.mp heq
    exact hne hstopped
  refine bootEffect_invariant (P := fun r => statusOf r key ≠ some .stopped) ?_ ?_ ?_
    (newRunner_not_stopped key) _ _
  · intro r key' status hne h
    rw [statusOf_setStatus]
    split_ifs
    · exact hmap hne
    · exact h
  · intro r i stage hstage _ h
    rw [statusOf_passStage i hstage]
    split_ifs
    · exact hmap (statusAfter_ne_stopped hstage)
    · exact h
  · intro r i stage error h
    rwa [statusOf_failStage]

/-- Only instances of the runner have been started. -/
lemma booted_started {i : RuntimeInstance} (hi : i ∈ (booted options).started) :
    i ∈ options.instances := by
  obtain ⟨n, hrun⟩ := boots_booted options
  have hinv : RunnerInvariant options (booted options) :=
    run_invariant (fun _ _ _ h hstep => step_invariant h hstep) newRunner_invariant hrun
  have hall : (booted options).started = registering options.instances := by
    rw [← hinv.ahead]
    exact (List.append_nil _).symm
  rw [hall, mem_registering] at hi
  obtain ⟨before, rest, hsplit, _⟩ := hi
  rw [hsplit]
  exact List.mem_append_right _ List.mem_cons_self

end Registered

section Stopping

variable {r s : PluginLifecycleRunner}

@[simp] lemma statusOf_record (event : LifecycleEvent) (key : JsString) :
    statusOf (r.record event) key = statusOf r key := rfl

def stopEvent (i : RuntimeInstance) : LifecycleEvent :=
  eventOf i .shutdown (stageOutcome (i.hooks .shutdown))

/-- `shutdown` alone goes from one state to another. -/
def ShutsDownTo (options : LifecycleRunnerOptions) (r s : PluginLifecycleRunner) : Prop :=
  ∃ n, run (step options) r (List.replicate n .shutdown) = some s

lemma ShutsDownTo.refl : ShutsDownTo options r r := ⟨0, rfl⟩

lemma ShutsDownTo.head {t : PluginLifecycleRunner} (hstep : step options r .shutdown = some s)
    (h : ShutsDownTo options s t) : ShutsDownTo options r t := by
  obtain ⟨n, hn⟩ := h
  exact ⟨n + 1, run_cons.mpr ⟨s, hstep, hn⟩⟩

/-- What the loop of `shutdown` leaves when it has been through these instances. -/
structure StopSpec (r : PluginLifecycleRunner) (progress : ShutdownProgress)
    (pending : List RuntimeInstance) (after : PluginLifecycleRunner)
    (result : ShutdownProgress) : Prop where
  returned : after.shutdown = .returned (shutdownOutcome result) result.events
  recorded : after.recorded = r.recorded ++ pending.map stopEvent
  events : result.events = progress.events ++ pending.map stopEvent
  timedOut : result.timedOut = true ↔ progress.timedOut = true ∨
    ∃ i ∈ pending, (stopEvent i).outcome = .timeout
  failed : result.failed = true ↔ progress.failed = true ∨
    ∃ i ∈ pending, (stopEvent i).outcome = .failed
  stopped : ∀ key, statusOf after key = some .stopped ↔ statusOf r key = some .stopped ∨
    ((statusOf r key).isSome = true ∧ ∃ i ∈ pending, i.key = key ∧ i.passes .shutdown = true)

/-- One instance in front of those that are left. -/
lemma StopSpec.cons {progress progress' : ShutdownProgress} {i : RuntimeInstance}
    {rest : List RuntimeInstance} {after : PluginLifecycleRunner} {result : ShutdownProgress}
    (h : StopSpec s progress' rest after result)
    (hrecorded : s.recorded = r.recorded ++ [stopEvent i])
    (hevents : progress'.events = progress.events ++ [stopEvent i])
    (htimedOut : progress'.timedOut = true ↔
      progress.timedOut = true ∨ (stopEvent i).outcome = .timeout)
    (hfailed : progress'.failed = true ↔
      progress.failed = true ∨ (stopEvent i).outcome = .failed)
    (hstatus : ∀ key, statusOf s key =
      if key = i.key ∧ i.passes .shutdown = true then (statusOf r key).map (fun _ => .stopped)
      else statusOf r key) : StopSpec r progress (i :: rest) after result where
  returned := h.returned
  recorded := by rw [h.recorded, hrecorded, List.append_assoc, List.map_cons, List.singleton_append]
  events := by rw [h.events, hevents, List.append_assoc, List.map_cons, List.singleton_append]
  timedOut := by rw [h.timedOut, htimedOut, List.exists_mem_cons_iff, or_assoc]
  failed := by rw [h.failed, hfailed, List.exists_mem_cons_iff, or_assoc]
  stopped key := by
    rw [h.stopped, List.exists_mem_cons_iff, hstatus]
    by_cases hthis : key = i.key ∧ i.passes .shutdown = true
    · rw [if_pos hthis]
      cases statusOf r key with
      | none => simp
      | some status => simp [hthis.1, hthis.2]
    · have hnot : ¬ (i.key = key ∧ i.passes .shutdown = true) :=
        fun h => hthis ⟨h.1.symm, h.2⟩
      rw [if_neg hthis]
      simp only [hnot, false_or]

/-- The loop, by induction on the instances that are left. -/
lemma shutdownLoop_returns (progress : ShutdownProgress) (pending : List RuntimeInstance) :
    ∃ after result, ShutsDownTo options (shutdownLoop r progress pending) after ∧
      StopSpec r progress pending after result := by
  induction pending generalizing r progress with
  | nil =>
    exact ⟨_, progress, ShutsDownTo.refl, rfl, (List.append_nil _).symm, (List.append_nil _).symm,
      by simp, by simp, by simp [shutdownLoop, statusOf]⟩
  | cons i rest ih =>
    unfold shutdownLoop
    cases hhook : i.hooks .shutdown with
    | none =>
      have hevent : stopEvent i = eventOf i .shutdown .skipped := by rw [stopEvent, hhook]; rfl
      have hpasses : i.passes .shutdown = true := by simp [RuntimeInstance.passes, hhook]
      obtain ⟨after, result, hto, hspec⟩ := @ih
        ((r.setStatus i.key .stopped).record (eventOf i .shutdown .skipped))
        (reportShutdown progress (eventOf i .shutdown .skipped))
      refine ⟨after, result, hto, hspec.cons ?_ ?_ ?_ ?_ ?_⟩
      · rw [hevent]; rfl
      · rw [hevent]; rfl
      · simp [hevent, eventOf, reportShutdown]
      · simp [hevent, eventOf, reportShutdown]
      · intro key
        rw [statusOf_record, statusOf_setStatus, hpasses]
        simp only [and_true]
    | some work =>
      set w : PluginLifecycleRunner := { r with shutdown := .hook i work rest progress }
      have hstatus : ∀ key, statusOf w key = statusOf r key := fun _ => rfl
      have hstep : step options w .shutdown =
          some (settleShutdown options w i work rest progress) := rfl
      simp only [settleShutdown] at hstep
      cases hw : withTimeout work (i.shutdownTimeoutMs.getD
          (options.shutdownTimeoutMs.getD DEFAULT_SHUTDOWN_TIMEOUT_MS)) .shutdown i.key with
      | none =>
        obtain rfl := withTimeout_eq_none.mp hw
        rw [hw] at hstep
        have hevent : stopEvent i = eventOf i .shutdown .ok := by rw [stopEvent, hhook]; rfl
        have hpasses : i.passes .shutdown = true := by simp [RuntimeInstance.passes, hhook]
        obtain ⟨after, result, hto, hspec⟩ := @ih
          ((w.setStatus i.key .stopped).record (eventOf i .shutdown .ok))
          (reportShutdown progress (eventOf i .shutdown .ok))
        refine ⟨after, result, ShutsDownTo.head hstep hto, hspec.cons ?_ ?_ ?_ ?_ ?_⟩
        · rw [hevent]; rfl
        · rw [hevent]; rfl
        · simp [hevent, eventOf, reportShutdown]
        · simp [hevent, eventOf, reportShutdown]
        · intro key
          rw [statusOf_record, statusOf_setStatus, hpasses, hstatus]
          simp only [and_true]
      | some error =>
        have hne : work ≠ .returns := by
          rintro rfl
          cases hw
        rw [hw] at hstep
        have hevent : stopEvent i =
            eventOf i .shutdown (if error.timedOut then .timeout else .failed) := by
          rw [stopEvent, hhook, stageOutcome_of_timeout hw]
        have hpasses : i.passes .shutdown = false := by simp [RuntimeInstance.passes, hhook, hne]
        obtain ⟨after, result, hto, hspec⟩ := @ih
          ((w.setError i.key .shutdown error.message).record
            (eventOf i .shutdown (if error.timedOut then .timeout else .failed)))
          (reportShutdown ⟨progress.events, progress.timedOut || error.timedOut,
              progress.failed || !error.timedOut⟩
            (eventOf i .shutdown (if error.timedOut then .timeout else .failed)))
        refine ⟨after, result, ShutsDownTo.head hstep hto, hspec.cons ?_ ?_ ?_ ?_ ?_⟩
        · rw [hevent]; rfl
        · rw [hevent]; rfl
        · rw [hevent]
          cases error.timedOut <;> simp [eventOf, reportShutdown]
        · rw [hevent]
          cases error.timedOut <;> simp [eventOf, reportShutdown]
        · intro key
          rw [statusOf_record, statusOf_setError, hpasses, hstatus]
          simp only [Bool.false_eq_true, and_false, if_false]

lemma exists_stopEvent {p : LifecycleEvent → Prop} {instances : List RuntimeInstance} :
    (∃ e ∈ instances.map stopEvent, p e) ↔ ∃ i ∈ instances, p (stopEvent i) := by simp

/-- The views of a shutdown that has taken `t`, where the boot had returned, to `r`. -/
structure ShutdownViews (t r : PluginLifecycleRunner) (outcome : HostShutdownOutcome)
    (events : List LifecycleEvent) : Prop where
  recorded : r.recorded = t.recorded ++ events
  reversed : ∃ registered : List RuntimeInstance,
    t.recorded.filter registration = registered.map registrationOf ∧
      events = (registered.map stopEvent).reverse
  stopped : ∀ key, statusOf r key = some .stopped ↔
    ∃ e ∈ events, e.key = key ∧ (e.outcome = .ok ∨ e.outcome = .skipped)
  timeout : outcome = .completedWithReportedTimeout ↔ ∃ e ∈ events, e.outcome = .timeout
  failure : outcome = .completedWithReportedFailure ↔
    (∀ e ∈ events, e.outcome ≠ .timeout) ∧ ∃ e ∈ events, e.outcome = .failed
  completed : outcome = .completed ↔ ∀ e ∈ events, e.outcome ≠ .timeout ∧ e.outcome ≠ .failed

lemma shutdownOutcome_timeout {progress : ShutdownProgress} :
    shutdownOutcome progress = .completedWithReportedTimeout ↔ progress.timedOut = true := by
  unfold shutdownOutcome
  cases progress.timedOut <;> cases progress.failed <;> simp

lemma shutdownOutcome_failure {progress : ShutdownProgress} :
    shutdownOutcome progress = .completedWithReportedFailure ↔
      progress.timedOut = false ∧ progress.failed = true := by
  unfold shutdownOutcome
  cases progress.timedOut <;> cases progress.failed <;> simp

lemma shutdownOutcome_completed {progress : ShutdownProgress} :
    shutdownOutcome progress = .completed ↔
      progress.timedOut = false ∧ progress.failed = false := by
  unfold shutdownOutcome
  cases progress.timedOut <;> cases progress.failed <;> simp

lemma passes_iff {i : RuntimeInstance} {stage : PluginLifecycleStage} :
    i.passes stage = true ↔
      stageOutcome (i.hooks stage) = .ok ∨ stageOutcome (i.hooks stage) = .skipped := by
  unfold RuntimeInstance.passes
  cases i.hooks stage with
  | none => simp [stageOutcome]
  | some work => cases work <;> simp [stageOutcome]

/-- `shutdown` after `boot`: the registered instances in reverse, whatever their hooks do. -/
theorem shutdown_reverses_boot (options : LifecycleRunnerOptions) :
    ∃ n t m r outcome events,
      run (step options) (newRunner options) (List.replicate n .boot) = some t ∧
        (∃ bootOutcome diagnostics, t.boot = .returned bootOutcome diagnostics) ∧
        run (step options) t (List.replicate m .shutdown) = some r ∧
        r.shutdown = .returned outcome events ∧ ShutdownViews t r outcome events := by
  obtain ⟨n, hboot⟩ := boots_booted options
  have hinv : RunnerInvariant options (booted options) :=
    run_invariant (fun _ _ _ h hstep => step_invariant h hstep) newRunner_invariant hboot
  have hidle : (booted options).shutdown = .idle := by
    refine bootEffect_invariant (P := fun r => r.shutdown = .idle) (fun _ _ _ _ h => h) ?_
      (fun _ _ _ _ h => h) rfl _ _
    intro r i stage _ _ h
    cases stage <;> exact h
  have hcall : step options (booted options) .shutdown =
      some (shutdownLoop (booted options) ⟨[], false, false⟩ (booted options).started.reverse) := by
    rw [step, hidle]
  obtain ⟨after, result, hto, hspec⟩ := @shutdownLoop_returns options (booted options)
    ⟨[], false, false⟩ (booted options).started.reverse
  obtain ⟨m, hrun⟩ := ShutsDownTo.head hcall hto
  have hevents : result.events = (booted options).started.reverse.map stopEvent := by
    rw [hspec.events, List.nil_append]
  have htimedOut : result.timedOut = true ↔ ∃ e ∈ result.events, e.outcome = .timeout := by
    rw [hspec.timedOut, hevents, exists_stopEvent]
    exact or_iff_right Bool.false_ne_true
  have hfailed : result.failed = true ↔ ∃ e ∈ result.events, e.outcome = .failed := by
    rw [hspec.failed, hevents, exists_stopEvent]
    exact or_iff_right Bool.false_ne_true
  refine ⟨n, _, m, after, _, _, hboot, ⟨_, _, rfl⟩, hrun, hspec.returned,
    by rw [hspec.recorded, hevents], ⟨(booted options).started, booted_registered, ?_⟩, ?_, ?_, ?_, ?_⟩
  · rw [hevents, List.map_reverse]
  · intro key
    rw [hspec.stopped, hevents, exists_stopEvent, or_iff_right (booted_not_stopped key)]
    constructor
    · rintro ⟨_, i, hi, hkey, hpasses⟩
      exact ⟨i, hi, hkey, passes_iff.mp hpasses⟩
    · rintro ⟨i, hi, hkey, houtcome⟩
      have hsome := booted_catalogued i (booted_started (List.mem_reverse.mp hi))
      exact ⟨hkey ▸ hsome, i, hi, hkey, passes_iff.mpr houtcome⟩
  · exact shutdownOutcome_timeout.trans htimedOut
  · refine shutdownOutcome_failure.trans (and_congr ?_ hfailed)
    rw [← Bool.not_eq_true, htimedOut]
    push Not
    rfl
  · refine shutdownOutcome_completed.trans ?_
    rw [← Bool.not_eq_true, htimedOut, ← Bool.not_eq_true, hfailed]
    push Not
    exact (forall₂_and).symm

end Stopping

end Appspine.Lifecycle
